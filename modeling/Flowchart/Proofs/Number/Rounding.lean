import Flowchart.Proofs.Number.Double

/-!
Rounding of the arithmetic of doubles. Each operation cuts its exact result off where the digits of a double end, and
keeps or raises the last digit. So a result is finite unless the exact one is too large for a double, and it differs
from the exact one by no more than the unit of its last digit.
-/
namespace Flowchart.Number

open Float.Model (Format UnpackedFloat totalExponent)
open Float.Model.UnpackedFloat

/-- The double that a number is packed into. -/
def packed (u : UnpackedFloat) : Float :=
  ⟨Float.Model.pack u⟩

/-- Mantissa and exponent of a finite double. -/
structure Fits (mantissa : Nat) (exponent : Int) : Prop where
  bound : mantissa < 2 ^ 53
  least : -1074 ≤ exponent
  greatest : exponent ≤ 971
  leading : 2 ^ 52 ≤ mantissa ∨ exponent = -1074

section packing

theorem toNat_packComponents (sign : Sign) (exponent : BitVec 11) (mantissa : BitVec 52) :
    (packComponents .binary64 sign exponent mantissa).toNat =
      (if isNegative sign then 2 ^ 63 else 0) + exponent.toNat * 2 ^ 52 + mantissa.toNat := by
  have exponentBound := exponent.isLt
  have mantissaBound := mantissa.isLt
  have front : (sign.toBitVec ++ exponent).toNat = (if isNegative sign then 2 ^ 11 else 0) + exponent.toNat := by
    rw [BitVec.toNat_append, ← Nat.shiftLeft_add_eq_or_of_lt exponentBound, Nat.shiftLeft_eq]
    cases sign <;> simp [Sign.toBitVec, isNegative]
  have whole : (packComponents .binary64 sign exponent mantissa).toNat =
      (sign.toBitVec ++ exponent ++ mantissa).toNat := rfl
  rw [whole, BitVec.toNat_append, ← Nat.shiftLeft_add_eq_or_of_lt mantissaBound, Nat.shiftLeft_eq, front]
  split <;> omega

/-- The parts that are packed are those that are read. -/
theorem decode_packed {u : UnpackedFloat} {sign : Sign} {exponent : BitVec 11} {mantissa : BitVec 52}
    (bits : pack .binary64 u = packComponents .binary64 sign exponent mantissa) : decode (packed u) =
      if exponent.toNat = 2047 then if mantissa.toNat = 0 then .infinite (isNegative sign) else .nan
      else if exponent.toNat = 0 then .finite (isNegative sign) mantissa.toNat (-1074)
      else .finite (isNegative sign) (mantissa.toNat + 2 ^ 52) (exponent.toNat - 1075) := by
  have exponentBound := exponent.isLt
  have mantissaBound := mantissa.isLt
  have whole : (packed u).toBits.toNat = (if isNegative sign then 2 ^ 63 else 0) + exponent.toNat * 2 ^ 52 +
      mantissa.toNat := by
    rw [← toNat_packComponents, ← bits]
    rfl
  have isSign : (packed u).toBits.toNat / 2 ^ 63 = if isNegative sign then 1 else 0 := by
    rw [whole]
    split <;> omega
  have isExponent : (packed u).toBits.toNat / 2 ^ 52 % 2 ^ 11 = exponent.toNat := by
    rw [whole]
    split <;> omega
  have isMantissa : (packed u).toBits.toNat % 2 ^ 52 = mantissa.toNat := by
    rw [whole]
    split <;> omega
  have negative : ((packed u).toBits.toNat / 2 ^ 63 == 1) = isNegative sign := by
    rw [isSign]
    cases isNegative sign <;> rfl
  rw [decode]
  simp only [Nat.pow_eq, negative, isExponent, isMantissa]
  rfl

theorem decode_packed_zero (sign : Sign) : decode (packed (.zero sign)) = .finite (isNegative sign) 0 (-1074) := by
  have bits : pack .binary64 (.zero sign) = packComponents .binary64 sign (0 : BitVec 11) (0 : BitVec 52) := rfl
  exact decode_packed bits

theorem decode_packed_finite {sign : Sign} {mantissa : Nat} {exponent : Int} (pos : 0 < mantissa)
    (fits : Fits mantissa exponent) :
    decode (packed (.finite sign mantissa exponent pos)) = .finite (isNegative sign) mantissa exponent := by
  obtain ⟨bound, least, greatest, leading⟩ := fits
  have biased : (exponent + (1023 : Nat) + (52 : Nat)).toNat = (exponent + 1075).toNat := by omega
  have inRange : ¬2 ^ 11 ≤ (exponent + 1075).toNat + 1 := by omega
  have packs : pack .binary64 (.finite sign mantissa exponent pos) =
      if mantissa.log2 + 1 = 53 then
        packComponents .binary64 sign (BitVec.ofNat 11 (exponent + 1075).toNat) (BitVec.ofNat 52 mantissa)
      else packComponents .binary64 sign 0#11 (BitVec.ofNat 52 mantissa) := by
    rw [← biased] at inRange ⊢
    exact if_neg inRange
  by_cases normal : 2 ^ 52 ≤ mantissa
  · have isLog : mantissa.log2 = 52 := (Nat.log2_eq_iff pos.ne').2 ⟨normal, bound⟩
    rw [if_pos (by omega)] at packs
    have isExponent : (BitVec.ofNat 11 (exponent + 1075).toNat).toNat = (exponent + 1075).toNat := by
      rw [BitVec.toNat_ofNat, Nat.mod_eq_of_lt (by omega)]
    have isMantissa : (BitVec.ofNat 52 mantissa).toNat + 2 ^ 52 = mantissa := by
      rw [BitVec.toNat_ofNat]
      omega
    rw [decode_packed packs, isExponent, isMantissa, if_neg (by omega), if_neg (by omega)]
    congr 1
    omega
  · have isLog : mantissa.log2 < 52 := (Nat.log2_lt pos.ne').2 (by omega)
    rw [if_neg (by omega)] at packs
    have isMantissa : (BitVec.ofNat 52 mantissa).toNat = mantissa := by
      rw [BitVec.toNat_ofNat, Nat.mod_eq_of_lt (by omega)]
    rw [decode_packed packs, isMantissa, leading.resolve_left normal]
    rfl

theorem fits_of_decode {x : Float} {negative : Bool} {mantissa : Nat} {exponent : Int}
    (finite : decode x = .finite negative mantissa exponent) : Fits mantissa exponent := by
  rw [decode] at finite
  simp only [Nat.pow_eq, Int.ofNat_eq_natCast] at finite
  have fraction : x.toBits.toNat % 2 ^ 52 < 2 ^ 52 := Nat.mod_lt _ (by decide)
  have power : x.toBits.toNat / 2 ^ 52 % 2 ^ 11 < 2 ^ 11 := Nat.mod_lt _ (by decide)
  split at finite
  · split at finite <;> cases finite
  · split at finite
    · cases finite
      constructor <;> omega
    · cases finite
      constructor <;> omega

end packing

section rounding

theorem mantissa_shiftRight (extended : ExtendedMantissa) (k : Nat) :
    (extended >>> k).mantissa = extended.mantissa / 2 ^ k := by
  induction k with
  | zero => exact (Nat.div_one _).symm
  | succ k ih =>
    show (extended >>> k).shiftRightOne.mantissa = _
    rw [ExtendedMantissa.shiftRightOne, ih, Nat.div_div_eq_div_mul, pow_succ]

/-- The last digit is kept or raised by one. -/
theorem roundedMantissa_bounds (extended : ExtendedMantissa) :
    extended.mantissa ≤ extended.roundedMantissa ∧ extended.roundedMantissa ≤ extended.mantissa + 1 := by
  obtain ⟨mantissa, round, sticky⟩ := extended
  cases round <;> cases sticky <;>
    simp only [ExtendedMantissa.roundedMantissa, ExtendedMantissa.accuracy, Accuracy.roundToNearestEven] <;> omega

/-- The exponent that a number is rounded to. -/
def target (mantissa : Nat) (exponent : Int) : Int :=
  max (mantissa.log2 + exponent - 52) (-1074)

/-- The last place that a double of some size has. -/
theorem targetExponent_binary64 (exponent : Int) :
    Format.binary64.targetExponent exponent = max (exponent - 53) (-1074) :=
  rfl

theorem targetExponent_eq (mantissa : Nat) (exponent : Int) :
    Format.binary64.targetExponent (totalExponent mantissa exponent) = target mantissa exponent := by
  rw [targetExponent_binary64, totalExponent, target]
  omega

theorem shiftToTarget_bounds (mantissa : Nat) (exponent : Int) (accuracy : Accuracy) {k : Nat}
    (shifted : target mantissa exponent = exponent + k) :
    ∃ rounded, mantissa / 2 ^ k ≤ rounded ∧ rounded ≤ mantissa / 2 ^ k + 1 ∧
      ((shiftToTargetExponent .binary64 mantissa exponent accuracy).1.roundedMantissa,
        (shiftToTargetExponent .binary64 mantissa exponent accuracy).2) = (rounded, exponent + k) := by
  have amount : (target mantissa exponent - exponent).toNat = k := by omega
  rw [shiftToTargetExponent, targetExponent_eq, shiftToExponent, amount]
  have bounds := roundedMantissa_bounds (ExtendedMantissa.ofMantissaAndAccuracy mantissa accuracy >>> k)
  have cut : (ExtendedMantissa.ofMantissaAndAccuracy mantissa accuracy).mantissa = mantissa := by
    fun_cases ExtendedMantissa.ofMantissaAndAccuracy mantissa accuracy <;> rfl
  rw [mantissa_shiftRight, cut] at bounds
  exact ⟨_, bounds.1, bounds.2, rfl⟩

theorem quotient_lt {mantissa k : Nat} (small : mantissa.log2 ≤ 52 + k) : mantissa / 2 ^ k < 2 ^ 53 := by
  rw [Nat.div_lt_iff_lt_mul (Nat.two_pow_pos k), ← pow_add]
  exact Nat.lt_log2_self.trans_le (Nat.pow_le_pow_right two_pos (by omega))

theorem le_quotient {mantissa k : Nat} (positive : mantissa ≠ 0) (large : 52 + k ≤ mantissa.log2) :
    2 ^ 52 ≤ mantissa / 2 ^ k := by
  rw [Nat.le_div_iff_mul_le (Nat.two_pow_pos k), ← pow_add]
  exact (Nat.le_log2 positive).1 large

/-- A rounded mantissa is that of a double, or the next power of two, which takes a place more. -/
theorem fits_rounded {mantissa k rounded : Nat} {exponent : Int} (shifted : target mantissa exponent = exponent + k)
    (small : target mantissa exponent ≤ 970) (low : mantissa / 2 ^ k ≤ rounded)
    (high : rounded ≤ mantissa / 2 ^ k + 1) :
    Fits rounded (exponent + k) ∨ rounded = 2 ^ 53 ∧ Fits (2 ^ 52) (exponent + k + 1) := by
  have least : -1074 ≤ exponent + k := shifted ▸ le_max_right _ _
  have isSmall : mantissa / 2 ^ k < 2 ^ 53 := quotient_lt (by rw [target] at shifted; omega)
  by_cases full : rounded < 2 ^ 53
  · refine .inl ⟨full, least, by omega, ?_⟩
    by_cases lowest : exponent + k = -1074
    · exact .inr lowest
    · have large : 52 + k ≤ mantissa.log2 := by rw [target] at shifted; omega
      have positive : mantissa ≠ 0 := by
        rintro rfl
        simp at large
      exact .inl ((le_quotient positive large).trans low)
  · exact .inr ⟨by omega, by norm_num, by omega, by omega, .inl le_rfl⟩

theorem shiftToTarget_of_fits {mantissa : Nat} {exponent : Int} (fits : Fits mantissa exponent) :
    shiftToTargetExponent .binary64 mantissa exponent .exact = (⟨mantissa, false, false⟩, exponent) := by
  have log : mantissa.log2 ≤ 52 := by
    rcases Nat.eq_zero_or_pos mantissa with rfl | positive
    · simp
    · exact Nat.le_of_lt_succ ((Nat.log2_lt positive.ne').2 fits.bound)
  have least := fits.least
  have amount : (target mantissa exponent - exponent).toNat = 0 := by rw [target]; omega
  rw [shiftToTargetExponent, targetExponent_eq, shiftToExponent, amount]
  exact Prod.ext rfl (Int.add_zero exponent)

theorem shiftToTarget_of_overflow {exponent : Int} (least : -1074 ≤ exponent) :
    shiftToTargetExponent .binary64 (2 ^ 53) exponent .exact = (⟨2 ^ 52, false, false⟩, exponent + 1) := by
  have amount : (target (2 ^ 53) exponent - exponent).toNat = 1 := by
    rw [target, Nat.log2_two_pow]
    omega
  rw [shiftToTargetExponent, targetExponent_eq, shiftToExponent, amount]
  rfl

theorem decode_packed_round (sign : Sign) {mantissa k : Nat} {exponent : Int} (accuracy : Accuracy)
    (shifted : target mantissa exponent = exponent + k) (small : target mantissa exponent ≤ 970) :
    ∃ rounded, mantissa / 2 ^ k ≤ rounded ∧ rounded ≤ mantissa / 2 ^ k + 1 ∧ ∃ mantissa' exponent',
      decode (packed (roundWithAccuracy .binary64 sign mantissa exponent accuracy)) =
        .finite (isNegative sign) mantissa' exponent' ∧
      (mantissa' * 2 ^ exponent' : Rat) = rounded * 2 ^ (exponent + k) := by
  obtain ⟨rounded, low, high, first⟩ := shiftToTarget_bounds mantissa exponent accuracy shifted
  refine ⟨rounded, low, high, ?_⟩
  obtain ⟨isRounded, isExponent⟩ := Prod.mk.inj first
  rw [roundWithAccuracy]
  generalize shiftToTargetExponent .binary64 mantissa exponent accuracy = shift at isRounded isExponent
  obtain ⟨extended, exponent'⟩ := shift
  dsimp only at isRounded isExponent ⊢
  rw [isRounded, isExponent]
  -- The rounded mantissa is shifted once more if it has become a power of two with one place too many.
  rcases fits_rounded shifted small low high with fits | ⟨rfl, fits⟩
  · rw [shiftToTarget_of_fits fits]
    dsimp only
    by_cases isZero : rounded = 0
    · subst isZero
      exact ⟨0, -1074, decode_packed_zero sign, by simp⟩
    · rw [dif_neg isZero]
      exact ⟨_, _, decode_packed_finite _ fits, rfl⟩
  · rw [shiftToTarget_of_overflow (shifted ▸ le_max_right _ _)]
    refine ⟨_, _, decode_packed_finite (by positivity) fits, ?_⟩
    rw [zpow_add_one₀ two_ne_zero]
    push_cast
    ring

/-- A sign as a factor. -/
def factor (sign : Sign) : Rat :=
  if isNegative sign then -1 else 1

theorem abs_factor_mul (sign : Sign) (q : Rat) : |factor sign * q| = |q| := by
  cases sign <;> simp [factor, isNegative]

theorem factor_neg (sign : Sign) : factor (-sign) = -factor sign := by
  cases sign
  · exact (neg_neg 1).symm
  · rfl

theorem factor_mul (first second : Sign) : factor (first * second) = factor first * factor second := by
  cases first <;> cases second <;> simp [factor, isNegative]

theorem factor_div (first second : Sign) : factor (first / second) = factor first / factor second := by
  cases first <;> cases second <;> simp [factor, isNegative] <;> rfl

theorem cast_apply (sign : Sign) (mantissa : Nat) : ((sign.apply mantissa : Int) : Rat) = factor sign * mantissa := by
  cases sign <;> simp [factor, isNegative, Sign.apply]

/-- The number is finite, and no further than an error from an exact value. -/
structure Approximates (x : Float) (exact error : Rat) : Prop where
  finite : x.isFinite = true
  near : |value x - exact| ≤ error

theorem Approximates.mono {x : Float} {exact error more : Rat} (near : Approximates x exact error)
    (le : error ≤ more) : Approximates x exact more :=
  ⟨near.finite, near.near.trans le⟩

theorem Approximates.abs_le {x : Float} {exact error bound : Rat} (near : Approximates x exact error)
    (le : |exact| ≤ bound) : |value x| ≤ bound + error := by
  have whole := abs_add_le (value x - exact) exact
  rw [sub_add_cancel] at whole
  linarith [near.near]

theorem approximates_of_decode {x : Float} {negative : Bool} {mantissa : Nat} {exponent : Int}
    (finite : decode x = .finite negative mantissa exponent) :
    Approximates x ((if negative then -1 else 1) * (mantissa * 2 ^ exponent)) 0 := by
  refine ⟨isFinite_iff.2 ⟨_, _, _, finite⟩, ?_⟩
  rw [value, finite, Decoded.value, sub_self, abs_zero]

/-- The unit of the last place of a number up to a power of two. -/
theorem target_le {mantissa : Nat} {exponent n : Int} (aligned : 52 ≤ mantissa.log2 ∨ exponent ≤ -1074)
    (least : -1022 ≤ n) (bound : (mantissa * 2 ^ exponent : Rat) ≤ 2 ^ n) :
    target mantissa exponent ≤ n - 52 := by
  rcases eq_or_ne mantissa 0 with rfl | positive
  · rw [Nat.log2_zero] at aligned
    rw [target, Nat.log2_zero]
    omega
  · have leading : ((2 ^ mantissa.log2 : Nat) : Rat) ≤ mantissa := by exact_mod_cast Nat.log2_self_le positive
    have power : (2 : Rat) ^ (mantissa.log2 + exponent) ≤ 2 ^ n := by
      rw [zpow_add₀ two_ne_zero, zpow_natCast]
      push_cast at leading
      exact (mul_le_mul_of_nonneg_right leading (zpow_pos two_pos _).le).trans bound
    have exponents := (zpow_le_zpow_iff_right₀ one_lt_two).1 power
    rw [target]
    omega

/-- What is cut off at a place lies between two neighbouring multiples of it. -/
theorem between_multiples (k : Nat) {mantissa : Nat} {exponent : Int} {exact : Rat}
    (low : mantissa * 2 ^ exponent ≤ exact) (high : exact ≤ (mantissa + 1) * 2 ^ exponent) :
    ((mantissa / 2 ^ k : Nat) * 2 ^ (exponent + k) : Rat) ≤ exact ∧
      exact ≤ ((mantissa / 2 ^ k : Nat) + 1) * 2 ^ (exponent + k) := by
  have place : (0 : Rat) < 2 ^ exponent := zpow_pos two_pos _
  have below : (((mantissa / 2 ^ k) * 2 ^ k : Nat) : Rat) ≤ mantissa := by
    exact_mod_cast Nat.div_mul_le_self mantissa (2 ^ k)
  have above : (mantissa + 1 : Rat) ≤ ((mantissa / 2 ^ k + 1) * 2 ^ k : Nat) := by
    rw [mul_comm]
    exact_mod_cast Nat.lt_mul_div_succ mantissa (Nat.two_pow_pos k)
  push_cast at below above
  rw [zpow_add₀ two_ne_zero, zpow_natCast]
  constructor
  · exact le_trans (by nlinarith) low
  · exact high.trans (by nlinarith)

/-- It is enough that the number is known to lie between a mantissa and the next one. -/
theorem approximates_round (sign : Sign) {mantissa : Nat} {exponent n : Int} (accuracy : Accuracy) {exact : Rat}
    (aligned : 52 ≤ mantissa.log2 ∨ exponent ≤ -1074) (least : -1022 ≤ n) (greatest : n ≤ 1022)
    (low : mantissa * 2 ^ exponent ≤ exact) (high : exact ≤ (mantissa + 1) * 2 ^ exponent)
    (bound : exact ≤ 2 ^ n) : Approximates (packed (roundWithAccuracy .binary64 sign mantissa exponent accuracy))
      (factor sign * exact) (2 ^ (n - 52)) := by
  have unit : target mantissa exponent ≤ n - 52 := target_le aligned least (low.trans bound)
  obtain ⟨k, shifted⟩ : ∃ k : Nat, target mantissa exponent = exponent + k :=
    ⟨(target mantissa exponent - exponent).toNat, by rw [target]; omega⟩
  obtain ⟨rounded, below, above, mantissa', exponent', finite, isValue⟩ :=
    decode_packed_round sign accuracy shifted (by omega)
  refine ⟨isFinite_iff.2 ⟨_, _, _, finite⟩, ?_⟩
  obtain ⟨cut, next⟩ := between_multiples k low high
  have below' : ((mantissa / 2 ^ k : Nat) : Rat) ≤ rounded := by exact_mod_cast below
  have above' : (rounded : Rat) ≤ (mantissa / 2 ^ k : Nat) + 1 := by exact_mod_cast above
  have place : (0 : Rat) < 2 ^ (exponent + k) := zpow_pos two_pos _
  have near : |(rounded * 2 ^ (exponent + k) : Rat) - exact| ≤ 2 ^ (exponent + k) := by
    rw [abs_le]
    constructor <;> nlinarith
  have distance : |factor sign * (rounded * 2 ^ (exponent + k)) - factor sign * exact| =
      |(rounded * 2 ^ (exponent + k) : Rat) - exact| := by
    rw [← mul_sub, abs_factor_mul]
  rw [value, finite, Decoded.value, isValue]
  exact (distance.trans_le near).trans (zpow_le_zpow_right₀ one_le_two (by omega))

theorem log2_shiftLeft {mantissa : Nat} (positive : mantissa ≠ 0) (k : Nat) :
    (mantissa <<< k).log2 = mantissa.log2 + k := by
  obtain ⟨low, high⟩ := (Nat.log2_eq_iff positive).1 rfl
  rw [Nat.shiftLeft_eq, Nat.log2_eq_iff (Nat.mul_ne_zero positive (Nat.two_pow_pos k).ne'), pow_add,
    show mantissa.log2 + k + 1 = mantissa.log2 + 1 + k by omega, pow_add _ _ k]
  exact ⟨Nat.mul_le_mul_right _ low, Nat.mul_lt_mul_of_pos_right high (Nat.two_pow_pos k)⟩

/-- More places do not change a number. -/
theorem shiftLeft_value (mantissa k : Nat) (exponent : Int) :
    (((mantissa <<< k : Nat) : Rat) * 2 ^ (exponent - k)) = mantissa * 2 ^ exponent := by
  rw [Nat.shiftLeft_eq, zpow_sub₀ two_ne_zero, zpow_natCast]
  push_cast
  field_simp

theorem approximates_roundExact (sign : Sign) {mantissa : Nat} {exponent n : Int} (positive : mantissa ≠ 0)
    (least : -1022 ≤ n) (greatest : n ≤ 1022) (bound : (mantissa * 2 ^ exponent : Rat) ≤ 2 ^ n) :
    Approximates (packed (UnpackedFloat.round .binary64 sign mantissa exponent))
      (factor sign * (mantissa * 2 ^ exponent)) (2 ^ (n - 52)) := by
  rw [UnpackedFloat.round, targetExponent_eq]
  generalize isAmount : (exponent - target mantissa exponent).toNat = k
  have aligned : 52 ≤ (mantissa <<< k).log2 ∨ exponent - k ≤ -1074 := by
    rw [log2_shiftLeft positive]
    rw [target] at isAmount
    omega
  have same := shiftLeft_value mantissa k exponent
  rw [decreaseExponent, isAmount]
  refine approximates_round sign .exact aligned least greatest same.le ?_ bound
  rw [← same]
  exact mul_le_mul_of_nonneg_right (by linarith) (zpow_pos two_pos _).le

theorem approximates_normalize (zeroSign : Sign) {mantissa exponent n : Int} (least : -1022 ≤ n)
    (greatest : n ≤ 1022) (bound : |(mantissa * 2 ^ exponent : Rat)| ≤ 2 ^ n) :
    Approximates (packed (UnpackedFloat.normalize .binary64 mantissa exponent zeroSign)) (mantissa * 2 ^ exponent)
      (2 ^ (n - 52)) := by
  have place : (0 : Rat) < 2 ^ exponent := zpow_pos two_pos _
  rw [abs_mul, abs_of_pos place] at bound
  rw [UnpackedFloat.normalize]
  split
  · rename_i below
    have isNegative : mantissa < 0 := Int.compare_eq_lt.1 below
    have size : (((-mantissa).toNat : Nat) : Rat) = -mantissa := by
      exact_mod_cast Int.toNat_of_nonneg (by omega : 0 ≤ -mantissa)
    have magnitude : |(mantissa : Rat)| = -mantissa := abs_of_neg (by exact_mod_cast isNegative)
    have near := approximates_roundExact .negative (show (-mantissa).toNat ≠ 0 by omega) least greatest
      (by rwa [size, ← magnitude])
    rw [size] at near
    simpa [factor, Number.isNegative] using near
  · rename_i isZero
    obtain rfl : mantissa = 0 := Int.compare_eq_eq.1 isZero
    have near := approximates_of_decode (decode_packed_zero zeroSign)
    simp only [Nat.cast_zero, Int.cast_zero, zero_mul, mul_zero] at near ⊢
    exact near.mono (zpow_pos two_pos _).le
  · rename_i above
    have isPositive : 0 < mantissa := Int.compare_eq_gt.1 above
    have size : ((mantissa.toNat : Nat) : Rat) = mantissa := by
      exact_mod_cast Int.toNat_of_nonneg isPositive.le
    have magnitude : |(mantissa : Rat)| = mantissa := abs_of_pos (by exact_mod_cast isPositive)
    have near := approximates_roundExact .positive (show mantissa.toNat ≠ 0 by omega) least greatest
      (by rwa [size, ← magnitude])
    rw [size] at near
    simpa [factor, Number.isNegative] using near

end rounding

section operations

/-- A finite number by its parts. -/
inductive IsParts : UnpackedFloat → Rat → Prop where
  | zero (sign : Sign) : IsParts (.zero sign) 0
  | finite (sign : Sign) {mantissa : Nat} {exponent : Int} (positive : 0 < mantissa) (fits : Fits mantissa exponent) :
      IsParts (.finite sign mantissa exponent positive) (factor sign * (mantissa * 2 ^ exponent))

theorem isParts_of_finite {x : Float} (finite : x.isFinite = true) : IsParts x.toModel.unpack (value x) := by
  have decoded := decode_eq x
  rw [Float.isFinite, Float.Model.isFinite] at finite
  rw [value]
  cases parts : x.toModel.unpack with
  | notANumber | infinity =>
    rw [parts] at finite
    cases finite
  | zero sign =>
    rw [parts] at decoded
    rw [decoded]
    show IsParts (.zero sign) (factor sign * ((0 : Nat) * 2 ^ (-1074 : Int)))
    rw [Nat.cast_zero, zero_mul, mul_zero]
    exact .zero sign
  | finite sign mantissa exponent positive =>
    rw [parts] at decoded
    rw [decoded]
    exact .finite sign positive (fits_of_decode decoded)

variable {u v : UnpackedFloat} {p q : Rat} {n : Int}

theorem approximates_packed (parts : IsParts u q) (n : Int) : Approximates (packed u) q (2 ^ n) := by
  have unit : (0 : Rat) ≤ 2 ^ n := (zpow_pos two_pos _).le
  cases parts with
  | zero sign =>
    have near := approximates_of_decode (decode_packed_zero sign)
    rw [Nat.cast_zero, zero_mul, mul_zero] at near
    exact near.mono unit
  | finite sign positive fits => exact (approximates_of_decode (decode_packed_finite positive fits)).mono unit

theorem IsParts.neg (parts : IsParts u q) : IsParts u.neg (-q) := by
  cases parts with
  | zero sign =>
    rw [neg_zero]
    exact .zero (-sign)
  | finite sign positive fits =>
    rw [← neg_mul, ← factor_neg]
    exact .finite (-sign) positive fits

theorem sub_eq_add (u v : UnpackedFloat) : sub .binary64 u v = add .binary64 u v.neg := by
  cases u with
  | finite sign _ exponent =>
    cases v with
    | finite sign' _ exponent' =>
      have opposite (n : Int) : (-sign').apply n = -sign'.apply n := by
        cases sign'
        · exact (neg_neg n).symm
        · rfl
      refine congrArg (fun mantissa => normalize .binary64 mantissa (min exponent exponent') .positive) ?_
      exact (sub_eq_add_neg _ _).trans (congrArg _ (opposite _).symm)
    | _ => rfl
  | _ => cases v <;> rfl

/-- A number with its last place at a lower exponent. -/
theorem decreaseExponent_value (sign : Sign) (mantissa : Nat) {exponent lower : Int} (le : lower ≤ exponent) :
    (sign.apply (decreaseExponent mantissa exponent lower).1 * 2 ^ lower : Rat) =
      factor sign * (mantissa * 2 ^ exponent) := by
  have same := shiftLeft_value mantissa (exponent - lower).toNat exponent
  rw [show exponent - ((exponent - lower).toNat : Int) = lower by omega] at same
  rw [cast_apply, decreaseExponent, mul_assoc, same]

variable (least : -1022 ≤ n) (greatest : n ≤ 1022)
include least greatest

theorem approximates_add_parts (first : IsParts u p) (second : IsParts v q) (bound : |p + q| ≤ 2 ^ n) :
    Approximates (packed (add .binary64 u v)) (p + q) (2 ^ (n - 52)) := by
  cases first with
  | zero sign =>
    cases second with
    | zero sign' =>
      rw [add_zero]
      show Approximates (packed (if (sign == sign') = true then .zero sign else .zero .positive)) 0 (2 ^ (n - 52))
      split <;> exact approximates_packed (.zero _) _
    | finite sign' positive' fits' =>
      rw [zero_add]
      exact approximates_packed (.finite sign' positive' fits') _
  | @finite sign mantissa exponent positive fits =>
    cases second with
    | zero sign' =>
      rw [add_zero]
      exact approximates_packed (.finite sign positive fits) _
    | @finite sign' mantissa' exponent' positive' fits' =>
      have whole := congrArg₂ (· + ·) (decreaseExponent_value sign mantissa (min_le_left exponent exponent'))
        (decreaseExponent_value sign' mantissa' (min_le_right exponent exponent'))
      simp only [← add_mul, ← Int.cast_add] at whole
      rw [← whole] at bound ⊢
      exact approximates_normalize .positive least greatest bound

theorem approximates_sub_parts (first : IsParts u p) (second : IsParts v q) (bound : |p - q| ≤ 2 ^ n) :
    Approximates (packed (sub .binary64 u v)) (p - q) (2 ^ (n - 52)) := by
  rw [sub_eq_add_neg] at bound ⊢
  rw [sub_eq_add]
  exact approximates_add_parts least greatest first second.neg bound

theorem approximates_mul_parts (first : IsParts u p) (second : IsParts v q) (bound : |p * q| ≤ 2 ^ n) :
    Approximates (packed (mul .binary64 u v)) (p * q) (2 ^ (n - 52)) := by
  cases first with
  | zero sign =>
    rw [zero_mul]
    cases second <;> exact approximates_packed (.zero _) _
  | @finite sign mantissa exponent positive fits =>
    cases second with
    | zero sign' =>
      rw [mul_zero]
      exact approximates_packed (.zero _) _
    | @finite sign' mantissa' exponent' positive' fits' =>
      have nonzero : mantissa * mantissa' ≠ 0 := (Nat.mul_pos positive positive').ne'
      have aligned : 52 ≤ (mantissa * mantissa').log2 ∨ exponent + exponent' ≤ -1074 := by
        rw [Nat.le_log2 nonzero]
        rcases fits.leading with large | lowest
        · exact .inl (large.trans (Nat.le_mul_of_pos_right _ positive'))
        · rcases fits'.leading with large' | lowest'
          · exact .inl (large'.trans (Nat.le_mul_of_pos_left _ positive))
          · right
            omega
      have place : (0 : Rat) < 2 ^ (exponent + exponent') := zpow_pos two_pos _
      have whole : factor sign * (mantissa * 2 ^ exponent) * (factor sign' * (mantissa' * 2 ^ exponent')) =
          factor (sign * sign') * ((mantissa * mantissa' : Nat) * 2 ^ (exponent + exponent')) := by
        rw [factor_mul, zpow_add₀ two_ne_zero]
        push_cast
        ring
      rw [whole] at bound ⊢
      rw [abs_factor_mul, abs_of_nonneg (mul_nonneg (Nat.cast_nonneg _) place.le)] at bound
      refine approximates_round (sign * sign') .exact aligned least greatest le_rfl ?_ bound
      exact mul_le_mul_of_nonneg_right (by linarith) place.le

omit least greatest

/-- A quotient is cut off at a place that leaves it all its digits. -/
theorem divCore_spec {mantissa mantissa' : Nat} (positive : 0 < mantissa) (positive' : 0 < mantissa')
    (exponent exponent' : Int) : ∃ quotient lower accuracy,
      divCore .binary64 mantissa exponent mantissa' exponent' = (quotient, lower, accuracy) ∧
      (52 ≤ quotient.log2 ∨ lower ≤ -1074) ∧
      quotient * 2 ^ lower ≤ (mantissa * 2 ^ exponent / (mantissa' * 2 ^ exponent') : Rat) ∧
      (mantissa * 2 ^ exponent / (mantissa' * 2 ^ exponent') : Rat) ≤ (quotient + 1) * 2 ^ lower := by
  rw [divCore]
  generalize isLower : min (exponent - exponent') (Format.binary64.targetExponent
    (totalExponent mantissa exponent - totalExponent mantissa' exponent')) = lower
  generalize isAmount : (exponent - exponent' - lower).toNat = k
  refine ⟨_, _, _, rfl, ?_, ?_⟩
  · by_cases lowest : lower ≤ -1074
    · exact .inr lowest
    · left
      have enough : 53 + mantissa'.log2 ≤ mantissa.log2 + k := by
        rw [targetExponent_binary64, totalExponent, totalExponent] at isLower
        omega
      have dividend : 2 ^ (53 + mantissa'.log2) ≤ mantissa <<< k := by
        rw [← Nat.le_log2 (Nat.shiftLeft_pos_iff.2 positive).ne', log2_shiftLeft positive.ne']
        exact enough
      have divisor : mantissa' < 2 ^ (mantissa'.log2 + 1) := Nat.lt_log2_self
      have large : 2 ^ 52 ≤ mantissa <<< k / mantissa' := by
        rw [Nat.le_div_iff_mul_le positive']
        calc 2 ^ 52 * mantissa' ≤ 2 ^ 52 * 2 ^ (mantissa'.log2 + 1) := Nat.mul_le_mul_left _ divisor.le
          _ = 2 ^ (53 + mantissa'.log2) := by rw [← pow_add]; congr 1; omega
          _ ≤ mantissa <<< k := dividend
      exact (Nat.le_log2 (by omega)).2 large
  · have le : lower ≤ exponent - exponent' := isLower ▸ min_le_left _ _
    have place : (0 : Rat) < 2 ^ lower := zpow_pos two_pos _
    have divisor : (0 : Rat) < mantissa' := by exact_mod_cast positive'
    have whole : (mantissa * 2 ^ exponent / (mantissa' * 2 ^ exponent') : Rat) =
        ((mantissa <<< k : Nat) : Rat) / mantissa' * 2 ^ lower := by
      have same := shiftLeft_value mantissa k (exponent - exponent')
      rw [show exponent - exponent' - (k : Int) = lower by omega] at same
      rw [div_mul_eq_mul_div, same, zpow_sub₀ two_ne_zero]
      field_simp
    have below : (((mantissa <<< k / mantissa' : Nat) * mantissa' : Nat) : Rat) ≤ (mantissa <<< k : Nat) := by
      exact_mod_cast Nat.div_mul_le_self _ _
    have above : ((mantissa <<< k : Nat) : Rat) ≤ (mantissa' * (mantissa <<< k / mantissa' + 1) : Nat) := by
      exact_mod_cast (Nat.lt_mul_div_succ (mantissa <<< k) positive').le
    push_cast at below above
    rw [whole]
    constructor
    · exact mul_le_mul_of_nonneg_right ((le_div_iff₀ divisor).2 below) place.le
    · refine mul_le_mul_of_nonneg_right ((div_le_iff₀ divisor).2 ?_) place.le
      linarith

include least greatest

theorem approximates_div_parts (first : IsParts u p) (second : IsParts v q) (nonzero : q ≠ 0)
    (bound : |p / q| ≤ 2 ^ n) : Approximates (packed (div .binary64 u v)) (p / q) (2 ^ (n - 52)) := by
  cases second with
  | zero => exact absurd rfl nonzero
  | @finite sign' mantissa' exponent' positive' fits' =>
    cases first with
    | zero sign =>
      rw [zero_div]
      exact approximates_packed (.zero _) _
    | @finite sign mantissa exponent positive fits =>
      obtain ⟨quotient, lower, accuracy, divides, aligned, low, high⟩ :=
        divCore_spec positive positive' exponent exponent'
      have whole : factor sign * (mantissa * 2 ^ exponent) / (factor sign' * (mantissa' * 2 ^ exponent')) =
          factor (sign / sign') * (mantissa * 2 ^ exponent / (mantissa' * 2 ^ exponent')) := by
        rw [factor_div, mul_div_mul_comm]
      have size : (0 : Rat) ≤ mantissa * 2 ^ exponent / (mantissa' * 2 ^ exponent') := by
        have place : (0 : Rat) ≤ 2 ^ exponent := (zpow_pos two_pos _).le
        have place' : (0 : Rat) ≤ 2 ^ exponent' := (zpow_pos two_pos _).le
        positivity
      rw [whole] at bound ⊢
      rw [abs_factor_mul, abs_of_nonneg size] at bound
      have rounds :
          div .binary64 (.finite sign mantissa exponent positive) (.finite sign' mantissa' exponent' positive') =
          match divCore .binary64 mantissa exponent mantissa' exponent' with
          | (quotient, lower, accuracy) => roundWithAccuracy .binary64 (sign / sign') quotient lower accuracy := rfl
      rw [rounds, divides]
      exact approximates_round (sign / sign') accuracy aligned least greatest low high bound

end operations

section arithmetic

variable {x y : Float} {n : Int}
variable (finite : x.isFinite = true) (finite' : y.isFinite = true) (least : -1022 ≤ n) (greatest : n ≤ 1022)
include finite finite' least greatest

/-- The sum of finite numbers is rounded by no more than the unit of its last place, and so are the other results. -/
theorem approximates_add (bound : |value x + value y| ≤ 2 ^ n) :
    Approximates (x + y) (value x + value y) (2 ^ (n - 52)) :=
  approximates_add_parts least greatest (isParts_of_finite finite) (isParts_of_finite finite') bound

theorem approximates_sub (bound : |value x - value y| ≤ 2 ^ n) :
    Approximates (x - y) (value x - value y) (2 ^ (n - 52)) :=
  approximates_sub_parts least greatest (isParts_of_finite finite) (isParts_of_finite finite') bound

theorem approximates_mul (bound : |value x * value y| ≤ 2 ^ n) :
    Approximates (x * y) (value x * value y) (2 ^ (n - 52)) :=
  approximates_mul_parts least greatest (isParts_of_finite finite) (isParts_of_finite finite') bound

theorem approximates_div (nonzero : value y ≠ 0) (bound : |value x / value y| ≤ 2 ^ n) :
    Approximates (x / y) (value x / value y) (2 ^ (n - 52)) :=
  approximates_div_parts least greatest (isParts_of_finite finite) (isParts_of_finite finite') nonzero bound

end arithmetic

end Flowchart.Number
