import Flowchart.Proofs.Number.Magnitude

/-!
The ends of the doubles. What lies between zero and a finite number is finite, and what is added to a number that is not
finite does not make it so.
-/
namespace Flowchart.Number

open Float.Model (UnpackedFloat)
open Float.Model.UnpackedFloat

variable {x y limit : Float} {a : Nat}

section order

theorem le_iff : x ≤ y ↔ (x.toModel.unpack.compare y.toModel.unpack).any (·.isLE) = true := by
  show Float.le x y = true ↔ _
  rw [Float.le, decide_eq_true_iff]
  rfl

theorem le_of_lt (lt : x < y) : x ≤ y := by
  have less : (x.toModel.unpack.compare y.toModel.unpack == some .lt) = true := by
    change Float.lt x y = true at lt
    rwa [Float.lt, decide_eq_true_iff] at lt
  rw [le_iff, beq_iff_eq.1 less]
  rfl

/-- Of positive numbers the one with the lower exponent is less, as the leading digit of the other one is set. -/
theorem value_le_of_compare {mantissa mantissa' : Nat} {exponent exponent' : Int} (fits : Fits mantissa exponent)
    (fits' : Fits mantissa' exponent')
    (le : ((compare exponent exponent').then (compare mantissa mantissa')).isLE = true) :
    (mantissa * 2 ^ exponent : Rat) ≤ mantissa' * 2 ^ exponent' := by
  rcases lt_trichotomy exponent exponent' with lower | rfl | higher
  · have least := fits.least
    have small : (mantissa : Rat) ≤ 2 ^ 53 := by exact_mod_cast fits.bound.le
    have large : (2 ^ 52 : Rat) ≤ mantissa' := by
      exact_mod_cast fits'.leading.resolve_right (by omega)
    have step : (2 ^ 53 * 2 ^ exponent : Rat) ≤ 2 ^ 52 * 2 ^ exponent' := by
      rw [show (2 ^ 53 * 2 ^ exponent : Rat) = 2 ^ 52 * 2 ^ (exponent + 1) by rw [zpow_add₀ two_ne_zero]; ring]
      exact mul_le_mul_of_nonneg_left (zpow_le_zpow_right₀ one_le_two (by omega)) (by positivity)
    calc (mantissa * 2 ^ exponent : Rat) ≤ 2 ^ 53 * 2 ^ exponent :=
          mul_le_mul_of_nonneg_right small (zpow_pos two_pos _).le
      _ ≤ 2 ^ 52 * 2 ^ exponent' := step
      _ ≤ mantissa' * 2 ^ exponent' := mul_le_mul_of_nonneg_right large (zpow_pos two_pos _).le
  · rw [compare_eq_iff_eq.2 rfl] at le
    have less : (mantissa : Rat) ≤ mantissa' := by
      exact_mod_cast Nat.isLE_compare.1 le
    exact mul_le_mul_of_nonneg_right less (zpow_pos two_pos _).le
  · rw [compare_gt_iff_gt.2 higher] at le
    cases le

theorem isFinite_of_compare {u v : UnpackedFloat} (finite : v.isFinite = true)
    (nonneg : ((zero .positive).compare u).any (·.isLE) = true) (le : (u.compare v).any (·.isLE) = true) :
    u.isFinite = true := by
  cases u with
  | zero | finite => rfl
  | notANumber => cases nonneg
  | infinity sign =>
    cases sign with
    | negative => cases nonneg
    | positive =>
      cases v with
      | notANumber | infinity => cases finite
      | zero | finite => cases le

theorem abs_le_of_compare {u v : UnpackedFloat} {p q : Rat} (first : IsParts u p) (second : IsParts v q)
    (nonneg : ((zero .positive).compare u).any (·.isLE) = true) (le : (u.compare v).any (·.isLE) = true) :
    |p| ≤ |q| := by
  cases first with
  | zero sign =>
    rw [abs_zero]
    exact abs_nonneg q
  | finite sign positive fits =>
    cases sign with
    | negative => cases nonneg
    | positive =>
      cases second with
      | zero sign => cases le
      | finite sign' positive' fits' =>
        cases sign' with
        | negative => cases le
        | positive =>
          rw [abs_factor_mul, abs_factor_mul]
          exact abs_le_abs_of_nonneg (mul_nonneg (Nat.cast_nonneg _) (zpow_pos two_pos _).le)
            (value_le_of_compare fits fits' le)

/-- What is not negative and not above a finite number is finite. -/
theorem Within.of_le (within : Within a limit) (nonneg : 0.0 ≤ x) (le : x ≤ limit) : Within a x := by
  intro small
  obtain ⟨finite, bound⟩ := within small
  have isZero : (0.0 : Float).toModel.unpack = zero .positive := by rfl
  rw [le_iff, isZero] at nonneg
  rw [le_iff] at le
  have isFinite : x.isFinite = true := isFinite_of_compare finite nonneg le
  exact ⟨isFinite, (abs_le_of_compare (isParts_of_finite isFinite) (isParts_of_finite finite) nonneg le).trans bound⟩

end order

section infinities

theorem isFinite_packed {u : UnpackedFloat} (notFinite : u.isFinite = false) : (packed u).isFinite = false := by
  cases u with
  | notANumber => decide +kernel
  | infinity sign => cases sign <;> decide +kernel
  | zero | finite => cases notFinite

theorem isFinite_add_parts {u v : UnpackedFloat} (notFinite : v.isFinite = false) :
    (add .binary64 u v).isFinite = false := by
  cases v with
  | notANumber => cases u <;> rfl
  | infinity sign =>
    cases u with
    | infinity sign' =>
      show (if (sign' == sign) = true then UnpackedFloat.infinity sign' else notANumber).isFinite = false
      split <;> rfl
    | notANumber | zero | finite => rfl
  | zero | finite => cases notFinite

theorem isFinite_add (notFinite : y.isFinite = false) : (x + y).isFinite = false :=
  isFinite_packed (isFinite_add_parts notFinite)

end infinities

end Flowchart.Number
