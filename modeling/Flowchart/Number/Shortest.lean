import Flowchart.Number.Decimal
import Flowchart.Number.FixedPoint

/-!
The shortest decimal text of a double: as few digits as read back as the same number, and of those the
nearest. It is positional from 10⁻⁴ up to 10¹⁶.
-/
namespace Flowchart.Number

/-- The quotient below `mantissa · 2 ^ exponent / 10 ^ place`, and whether the next one is nearer. -/
def gridBelow (mantissa : Nat) (exponent place : Int) : Nat × Bool :=
  let num := mantissa * Nat.pow 2 exponent.toNat * Nat.pow 10 (-place).toNat
  let den := Nat.pow 2 (-exponent).toNat * Nat.pow 10 place.toNat
  (num / den, den < 2 * (num % den))

/-- The power of ten of the leading digit. -/
def leadingPlace (mantissa : Nat) (exponent : Int) : Int :=
  let units := (gridBelow mantissa exponent (-400)).1
  ((Nat.toDigits 10 units).length : Int) - 401

/-- A decimal with digits down to a place that reads back as the number, the nearer neighbour first. -/
def onGrid? (x : Float) (mantissa : Nat) (exponent place : Int) : Option Nat :=
  let (below, isAboveNearer) := gridBelow mantissa exponent place
  let candidates := if isAboveNearer then [below + 1, below] else [below, below + 1]
  candidates.find? fun units => ofDecimal false units place == x

/-- The fewest digits, and the place of the last, that read back as a positive number. -/
def shortestDigits (x : Float) (mantissa : Nat) (exponent : Int) : Nat × Int :=
  let leading := leadingPlace mantissa exponent
  let found? := (List.range 17).findSome? fun (count : Nat) =>
    let place := leading - count
    (onGrid? x mantissa exponent place).map fun units => (units, place)
  found?.getD (0, 0)

/-- Digits with a point behind the given number of them, and at least one digit on either side. -/
def pointed (digits : List Char) (whole : Int) : List Char :=
  let front := if whole ≤ 0 then ['0'] else
    digits.take whole.toNat ++ List.replicate (whole.toNat - digits.length) '0'
  let back := List.replicate (-whole).toNat '0' ++ digits.drop whole.toNat
  front ++ '.' :: if back.isEmpty then ['0'] else back

/-- Digits with a power of ten of at least two digits. -/
def powered (digits : List Char) (power : Int) : List Char :=
  let fraction := digits.drop 1
  digits.take 1 ++ (if fraction.isEmpty then [] else '.' :: fraction) ++
    'e' :: (if power < 0 then '-' else '+') :: paddedDigits 2 power.natAbs

/-- The shortest text that reads back as a double. -/
def shortestText (x : Float) : String :=
  match decode x with
  | .nan => "nan"
  | .infinite negative => if negative then "-inf" else "inf"
  | .finite negative mantissa exponent =>
    let (units, place) := shortestDigits x.abs mantissa exponent
    let digits := Nat.toDigits 10 units
    let power := (digits.length : Int) + place - 1
    let text :=
      if mantissa = 0 then ['0', '.', '0']
      else if -4 ≤ power && power < 16 then pointed digits (power + 1)
      else powered digits power
    String.ofList (if negative then '-' :: text else text)

end Flowchart.Number
