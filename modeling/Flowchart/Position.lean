/-!
Places in a source text. Lines and columns count from one and offsets from zero, all of them in
characters; only a line feed starts a new line. The numbers are integers because a place may also be
handed in from outside.
-/
namespace Flowchart

/-- A place between two characters of a source. -/
structure Position where
  line : Int
  column : Int
  offset : Int := 0
  deriving DecidableEq, Repr, Inhabited

namespace Position

def start : Position := ⟨1, 1, 0⟩

def step (at_ : Position) (c : Char) : Position :=
  if c = '\n' then ⟨at_.line + 1, 1, at_.offset + 1⟩
  else ⟨at_.line, at_.column + 1, at_.offset + 1⟩

def advance (at_ : Position) (cs : List Char) : Position :=
  cs.foldl step at_

@[simp] theorem advance_nil (at_ : Position) : at_.advance [] = at_ := rfl

@[simp] theorem advance_cons (at_ : Position) (c : Char) (cs : List Char) :
    at_.advance (c :: cs) = (at_.step c).advance cs := rfl

theorem advance_append (at_ : Position) (cs ds : List Char) :
    at_.advance (cs ++ ds) = (at_.advance cs).advance ds :=
  List.foldl_append

def cite (at_ : Position) : String :=
  s!"line {at_.line}, column {at_.column}"

end Position

/-- A half-open range of a source. -/
structure Span where
  start : Position
  stop : Position
  deriving DecidableEq, Repr, Inhabited

end Flowchart
