/-!
Decimal text of a binary floating point number with a fixed number of places. The value is decoded
into an integer times a power of two, so that rounding is exact: to the nearest, and a tie to the
even neighbour.
-/
namespace Flowchart.Number

/-- What the bits of a double stand for: a finite one is `mantissa · 2 ^ exponent`. -/
inductive Decoded where
  | nan
  | infinite (negative : Bool)
  | finite (negative : Bool) (mantissa : Nat) (exponent : Int)
  deriving DecidableEq, Repr

/-- Reads sign, exponent and fraction of a double. -/
def decode (x : Float) : Decoded :=
  let bits := x.toBits.toNat
  let negative := bits / Nat.pow 2 63 == 1
  let power : Nat := bits / Nat.pow 2 52 % Nat.pow 2 11
  let fraction := bits % Nat.pow 2 52
  if power = 2047 then
    if fraction = 0 then .infinite negative else .nan
  else if power = 0 then .finite negative fraction (-1074)
  else .finite negative (fraction + Nat.pow 2 52) (Int.ofNat power - 1075)

/-- The integer nearest to a quotient, and the even one of two equally near. -/
def roundDiv (num den : Nat) : Nat :=
  let quotient := num / den
  let rest := num % den
  if 2 * rest < den then quotient
  else if den < 2 * rest then quotient + 1
  else if quotient % 2 = 0 then quotient else quotient + 1

/-- The integer nearest to `mantissa · 2 ^ exponent · scale`. -/
def roundScaled (scale mantissa : Nat) (exponent : Int) : Nat :=
  match exponent with
  | .ofNat e => mantissa * scale * Nat.pow 2 e
  | .negSucc e => roundDiv (mantissa * scale) (Nat.pow 2 (e + 1))

/-- The decimal digits of a number, at least as many as asked for. -/
def paddedDigits (width n : Nat) : List Char :=
  let digits := Nat.toDigits 10 n
  List.replicate (width - digits.length) '0' ++ digits

/-- `units / 10 ^ places` with all its places, and no point if there are none. -/
def placesText (places units : Nat) : List Char :=
  let whole := Nat.toDigits 10 (units / Nat.pow 10 places)
  if places = 0 then whole
  else whole ++ '.' :: paddedDigits places (units % Nat.pow 10 places)

/-- The number with the given count of decimal places. -/
def fixedChars (places : Nat) (x : Float) : List Char :=
  match decode x with
  | .nan => ['n', 'a', 'n']
  | .infinite negative => (if negative then ['-'] else []) ++ ['i', 'n', 'f']
  | .finite negative mantissa exponent =>
    (if negative then ['-'] else []) ++
      placesText places (roundScaled (Nat.pow 10 places) mantissa exponent)

/-- The number with the given count of decimal places, as text. -/
def fixedText (places : Nat) (x : Float) : String :=
  String.ofList (fixedChars places x)

end Flowchart.Number
