/-!
Arithmetic of coordinates. Layout is written once over any type with the four operations, decimal
literals and a decidable order; doubles are what the program draws with, and exact rationals are what
its geometry can be reasoned about with.
-/
namespace Flowchart

/-- Numbers that positions and sizes are computed in. -/
class Coordinate (α : Type) extends Add α, Sub α, Mul α, Div α, Neg α, NatCast α, OfScientific α,
    LT α, LE α, Inhabited α where
  decideLt : DecidableLT α
  decideLe : DecidableLE α

namespace Coordinate

instance (priority := low) [Coordinate α] : DecidableLT α := Coordinate.decideLt
instance (priority := low) [Coordinate α] : DecidableLE α := Coordinate.decideLe

instance : Coordinate Float where
  natCast := Float.ofNat
  decideLt := inferInstance
  decideLe := inferInstance

instance : Coordinate Rat where
  decideLt := inferInstance
  decideLe := inferInstance

variable {α : Type} [Coordinate α]

/-- The larger of two numbers; the first unless the second exceeds it. -/
def larger (a b : α) : α :=
  if a < b then b else a

/-- The smaller of two numbers; the first unless the second is below it. -/
def smaller (a b : α) : α :=
  if b < a then b else a

/-- The largest of the numbers, and zero if there are none. -/
def maximum : List α → α
  | [] => 0.0
  | first :: rest => rest.foldl larger first

/-- The smallest of the numbers, and zero if there are none. -/
def minimum : List α → α
  | [] => 0.0
  | first :: rest => rest.foldl smaller first

/-- The sum of the numbers, added from the left to zero. -/
def total (numbers : List α) : α :=
  numbers.foldl (· + ·) 0.0

def magnitude (a : α) : α :=
  if a < 0.0 then -a else a

end Coordinate
end Flowchart
