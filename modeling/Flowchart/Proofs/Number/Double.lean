import Flowchart.Number.FixedPoint
import Mathlib.Tactic.FieldSimp
import Mathlib.Tactic.Linarith
import Mathlib.Tactic.Positivity
import Mathlib.Tactic.Ring

/-!
The number that a double stands for, and the integer that is nearest to it. Decoding reads the same sign, mantissa and
exponent as the arithmetic of doubles does, so that what is printed and what is computed with are the same number.
-/
namespace Flowchart.Number

open Float.Model (Format UnpackedFloat)
open Float.Model.UnpackedFloat

section decoding

variable (bits : BitVec 64)

theorem toNat_unpackMantissa : (@unpackMantissa .binary64 bits).toNat = bits.toNat % 2 ^ 52 := by
  simp [unpackMantissa]

theorem toNat_unpackExponent :
    (@unpackExponent .binary64 bits).toNat = bits.toNat / 2 ^ 52 % 2 ^ 11 := by
  simp [unpackExponent, Nat.shiftRight_eq_div_pow]

theorem toNat_unpackSign : (@unpackSign .binary64 bits).toNat = bits.toNat / 2 ^ 63 := by
  have bound := bits.isLt
  show (BitVec.extractLsb 63 63 bits).toNat = bits.toNat / 2 ^ 63
  rw [BitVec.extractLsb_toNat, Nat.shiftRight_eq_div_pow]
  exact Nat.mod_eq_of_lt (Nat.div_lt_of_lt_mul bound)

/-- The mantissa of a normal number has a leading bit that is not written. -/
theorem toNat_normalMantissa :
    BitVec.toNat (1#1 ++ (@unpackMantissa .binary64 bits : BitVec 52)) =
      bits.toNat % 2 ^ 52 + 2 ^ 52 := by
  have bound : bits.toNat % 2 ^ 52 < 2 ^ 52 := Nat.mod_lt _ (by decide)
  rw [BitVec.toNat_append, toNat_unpackMantissa, ← Nat.shiftLeft_add_eq_or_of_lt bound]
  simp [Nat.shiftLeft_eq, Nat.add_comm]

variable {bits}

theorem unpack_of_special (isSpecial : @unpackExponent .binary64 bits = -1#_) :
    unpack .binary64 bits =
      if @unpackMantissa .binary64 bits = 0#_ then .infinity (.ofBitVec (@unpackSign .binary64 bits))
      else .notANumber :=
  if_pos isSpecial

theorem unpack_of_zero (notSpecial : @unpackExponent .binary64 bits ≠ -1#_)
    (isSmall : @unpackExponent .binary64 bits = 0#_) (isZero : @unpackMantissa .binary64 bits = 0#_) :
    unpack .binary64 bits = .zero (.ofBitVec (@unpackSign .binary64 bits)) :=
  (if_neg notSpecial).trans ((if_pos isSmall).trans (dif_pos isZero))

theorem unpack_of_small (notSpecial : @unpackExponent .binary64 bits ≠ -1#_)
    (isSmall : @unpackExponent .binary64 bits = 0#_) (notZero : @unpackMantissa .binary64 bits ≠ 0#_) :
    ∃ positive, unpack .binary64 bits = .finite (.ofBitVec (@unpackSign .binary64 bits))
      (@unpackMantissa .binary64 bits).toNat ((@unpackExponent .binary64 bits).toNat - 1075 + 1) positive :=
  ⟨_, (if_neg notSpecial).trans ((if_pos isSmall).trans (dif_neg notZero))⟩

theorem unpack_of_normal (notSpecial : @unpackExponent .binary64 bits ≠ -1#_)
    (notSmall : @unpackExponent .binary64 bits ≠ 0#_) :
    ∃ positive, unpack .binary64 bits = .finite (.ofBitVec (@unpackSign .binary64 bits))
      (BitVec.toNat (1#1 ++ (@unpackMantissa .binary64 bits : BitVec 52)))
      ((@unpackExponent .binary64 bits).toNat - 1075) positive :=
  ⟨_, (if_neg notSpecial).trans (if_neg notSmall)⟩

end decoding

def isNegative : Sign → Bool
  | .negative => true
  | .positive => false

theorem isNegative_ofBitVec (bit : BitVec 1) : isNegative (Sign.ofBitVec bit) = (bit.toNat == 1) := by
  obtain ⟨n, bound⟩ := bit
  obtain rfl | rfl : n = 0 ∨ n = 1 := by omega
  · rfl
  · rfl

/-- What the parts of a double stand for. -/
def Decoded.ofUnpacked : UnpackedFloat → Decoded
  | .notANumber => .nan
  | .infinity sign => .infinite (isNegative sign)
  | .zero sign => .finite (isNegative sign) 0 (-1074)
  | .finite sign mantissa exponent _ => .finite (isNegative sign) mantissa exponent

theorem decode_eq (x : Float) : decode x = .ofUnpacked x.toModel.unpack := by
  rw [Float.Model.unpack, decode, show x.toBits.toNat = x.toModel.toBits.toBitVec.toNat from rfl]
  generalize x.toModel.toBits.toBitVec = bits
  have mantissa := toNat_unpackMantissa bits
  have exponent := toNat_unpackExponent bits
  have sign := isNegative_ofBitVec (@unpackSign .binary64 bits)
  rw [toNat_unpackSign] at sign
  have special : @unpackExponent .binary64 bits = -1#_ ↔ bits.toNat / 2 ^ 52 % 2 ^ 11 = 2047 := by
    rw [← exponent, ← BitVec.toNat_inj]
    rfl
  have small : @unpackExponent .binary64 bits = 0#_ ↔ bits.toNat / 2 ^ 52 % 2 ^ 11 = 0 := by
    rw [← exponent, ← BitVec.toNat_inj]
    rfl
  have none : @unpackMantissa .binary64 bits = 0#_ ↔ bits.toNat % 2 ^ 52 = 0 := by
    rw [← mantissa, ← BitVec.toNat_inj]
    rfl
  simp only [Nat.pow_eq, ← special, ← small, ← none, ← sign]
  by_cases isSpecial : @unpackExponent .binary64 bits = -1#_
  · rw [if_pos isSpecial, unpack_of_special isSpecial]
    split
    · rfl
    · rfl
  · rw [if_neg isSpecial]
    by_cases isSmall : @unpackExponent .binary64 bits = 0#_
    · rw [if_pos isSmall]
      by_cases isZero : @unpackMantissa .binary64 bits = 0#_
      · rw [unpack_of_zero isSpecial isSmall isZero, none.1 isZero]
        rfl
      · obtain ⟨_, isFinite⟩ := unpack_of_small isSpecial isSmall isZero
        rw [isFinite, exponent, small.1 isSmall, ← mantissa]
        rfl
    · obtain ⟨_, isFinite⟩ := unpack_of_normal isSpecial isSmall
      rw [if_neg isSmall, isFinite, exponent, ← toNat_normalMantissa]
      rfl

namespace Decoded

/-- The number that bits stand for, and zero if they stand for none. -/
def value : Decoded → Rat
  | nan | infinite _ => 0
  | finite negative mantissa exponent => (if negative then -1 else 1) * (mantissa * 2 ^ exponent)

/-- A minus sign in front of a finite number, which may be zero. -/
def hasMinus : Decoded → Bool
  | nan | infinite _ => false
  | finite negative _ _ => negative

end Decoded

/-- The exact value of a double, and zero if it is not finite. -/
def value (x : Float) : Rat :=
  (decode x).value

theorem isFinite_iff {x : Float} :
    x.isFinite = true ↔ ∃ negative mantissa exponent, decode x = .finite negative mantissa exponent := by
  rw [Float.isFinite, Float.Model.isFinite, decode_eq]
  cases x.toModel.unpack with
  | notANumber => exact iff_of_false Bool.false_ne_true nofun
  | infinity sign => exact iff_of_false Bool.false_ne_true nofun
  | zero sign => exact iff_of_true rfl ⟨_, _, _, rfl⟩
  | finite sign mantissa exponent positive => exact iff_of_true rfl ⟨_, _, _, rfl⟩

/-- The integer is the nearest one to a number, and the even one of two equally near. -/
structure IsNearest (q : Rat) (n : Int) : Prop where
  near : |q - n| ≤ 1 / 2
  tie : |q - n| = 1 / 2 → Even n

theorem IsNearest.neg {q : Rat} {n : Int} (nearest : IsNearest q n) : IsNearest (-q) (-n) := by
  have same : |-q - ((-n : Int) : Rat)| = |q - n| := by
    rw [← abs_neg]
    push_cast
    ring_nf
  constructor
  · rw [same]
    exact nearest.near
  · intro isTie
    rw [same] at isTie
    exact (nearest.tie isTie).neg

/-- There is but one nearest integer. -/
theorem IsNearest.unique {q : Rat} {m n : Int} (first : IsNearest q m) (second : IsNearest q n) : m = n := by
  by_contra differ
  wlog below : m < n generalizing m n with swapped
  · exact swapped second first (Ne.symm differ) (by omega)
  have isFirst := abs_le.1 first.near
  have isSecond := abs_le.1 second.near
  have next : (m : Rat) + 1 ≤ n := by exact_mod_cast below
  -- Two integers that are as near as that lie on either side of the number, half a unit away.
  have firstTie : q - m = 1 / 2 := by linarith
  have secondTie : q - n = -(1 / 2) := by linarith
  have evenFirst := first.tie (by rw [firstTie]; norm_num)
  have evenSecond := second.tie (by rw [secondTie]; norm_num)
  have apart : n = m + 1 := by
    have : (n : Rat) = m + 1 := by linarith
    exact_mod_cast this
  rw [apart] at evenSecond
  exact absurd evenSecond (by simpa [Int.even_add_one] using evenFirst)

theorem IsNearest.of_lt {q : Rat} {n : Int} (near : |q - n| < 1 / 2) : IsNearest q n :=
  ⟨near.le, fun isTie => absurd isTie near.ne⟩

theorem IsNearest.of_tie {q : Rat} {n : Int} (isTie : |q - n| = 1 / 2) (isEven : Even n) : IsNearest q n :=
  ⟨isTie.le, fun _ => isEven⟩

theorem isNearest_roundDiv (num : Nat) {den : Nat} (pos : 0 < den) :
    IsNearest ((num : Rat) / den) (roundDiv num den : Nat) := by
  have positive : (0 : Rat) < den := by exact_mod_cast pos
  have split : (num : Rat) = den * (num / den : Nat) + (num % den : Nat) := by
    exact_mod_cast (Nat.div_add_mod num den).symm
  have below : num % den < den := Nat.mod_lt num pos
  rw [roundDiv, split]
  generalize num / den = quotient
  generalize num % den = rest at below
  have restBelow : (rest : Rat) < den := by exact_mod_cast below
  have restNonneg : (0 : Rat) ≤ rest := rest.cast_nonneg
  -- Distances in parts of the divisor.
  have distance (n : Nat) : |(den * quotient + rest) / den - ((n : Int) : Rat)| =
      |(den : Rat) * quotient + rest - den * n| / den := by
    rw [div_sub' positive.ne', abs_div, abs_of_pos positive, Int.cast_natCast]
  have near (n : Nat) (low : -(den : Rat) < 2 * (den * quotient + rest - den * n))
      (high : 2 * (den * quotient + rest - den * n) < (den : Rat)) :
      IsNearest ((den * quotient + rest) / den) (n : Nat) := by
    apply IsNearest.of_lt
    rw [distance, div_lt_div_iff₀ positive two_pos, one_mul, ← abs_two, ← abs_mul, abs_lt]
    constructor <;> linarith
  have tied (n : Nat) (isTie : |(den : Rat) * quotient + rest - den * n| * 2 = den) (isEven : n % 2 = 0) :
      IsNearest ((den * quotient + rest) / den) (n : Nat) := by
    refine IsNearest.of_tie ?_ (by exact_mod_cast Nat.even_iff.2 isEven)
    rw [distance, div_eq_div_iff positive.ne' two_ne_zero, one_mul, isTie]
  split
  · rename_i less
    have half : (2 * rest : Rat) < den := by exact_mod_cast less
    apply near <;> linarith
  · split
    · rename_i more
      have half : (den : Rat) < 2 * rest := by exact_mod_cast more
      apply near <;> push_cast <;> linarith
    · have half : (2 * rest : Rat) = den := by exact_mod_cast (show 2 * rest = den by omega)
      split
      · rename_i isEven
        refine tied _ ?_ isEven
        rw [abs_of_nonneg (by linarith)]
        linarith
      · refine tied _ ?_ (by omega)
        push_cast
        rw [abs_of_nonpos (by linarith)]
        linarith

theorem IsNearest.intCast (n : Int) : IsNearest n n := by
  constructor <;> norm_num

theorem isNearest_roundScaled (scale mantissa : Nat) (exponent : Int) :
    IsNearest (scale * (mantissa * 2 ^ exponent)) (roundScaled scale mantissa exponent : Nat) := by
  cases exponent with
  | ofNat e =>
    have whole : (scale : Rat) * (mantissa * 2 ^ (Int.ofNat e)) =
        ((roundScaled scale mantissa (.ofNat e) : Nat) : Int) := by
      simp only [roundScaled, Nat.pow_eq, Int.ofNat_eq_natCast, zpow_natCast]
      push_cast
      ring
    rw [whole]
    exact .intCast _
  | negSucc e =>
    have quotient : (scale : Rat) * (mantissa * 2 ^ (Int.negSucc e)) =
        ((mantissa * scale : Nat) : Rat) / (Nat.pow 2 (e + 1) : Nat) := by
      rw [zpow_negSucc, Nat.pow_eq]
      push_cast
      field_simp
    rw [quotient]
    exact isNearest_roundDiv _ (Nat.pow_pos two_pos)

/-- A finite number in hundredths, rounded. -/
def Decoded.hundredths : Decoded → Int
  | nan | infinite _ => 0
  | finite negative mantissa exponent =>
    (if negative then -1 else 1) * (roundScaled 100 mantissa exponent : Nat)

theorem isNearest_hundredths (decoded : Decoded) : IsNearest (100 * decoded.value) decoded.hundredths := by
  cases decoded with
  | nan | infinite =>
    rw [Decoded.value, mul_zero]
    exact_mod_cast IsNearest.intCast 0
  | finite negative mantissa exponent =>
    have nearest := isNearest_roundScaled 100 mantissa exponent
    cases negative with
    | false => simpa [Decoded.value, Decoded.hundredths] using nearest
    | true => simpa [Decoded.value, Decoded.hundredths] using nearest.neg

end Flowchart.Number
