import Flowchart.Number.Coordinate
import Flowchart.Proofs.Number.Rounding

/-!
Bounds on computed numbers. Numbers are counted in units of a large power of two, next to which every rounding is small:
each operation adds at most one unit to the bound that its exact result has. A bound of too many units says nothing, so
that no step of a computation has to show that there is room for it.
-/
namespace Flowchart.Number

/-- The unit of the last digit of the largest results that are looked at. -/
def unit : Rat :=
  2 ^ 970

theorem unit_pos : 0 < unit := by
  unfold unit
  positivity

/-- The number is finite and has at most so many units, unless those are more than `2 ^ 51`. -/
def Within (bound : Nat) (x : Float) : Prop :=
  bound ≤ 2 ^ 51 → x.isFinite = true ∧ |value x| ≤ bound * unit

/-- The number is finite and no larger than a given one. -/
structure UpTo (bound : Nat) (x : Float) : Prop where
  finite : x.isFinite = true
  le : |value x| ≤ bound

variable {x y : Float} {a b c : Nat} {exact : Rat}

theorem Within.mono (within : Within a x) (le : a ≤ b) : Within b x := by
  intro small
  obtain ⟨finite, bound⟩ := within (le.trans small)
  have more : (a : Rat) ≤ b := by exact_mod_cast le
  exact ⟨finite, bound.trans (mul_le_mul_of_nonneg_right more unit_pos.le)⟩

section results

theorem room (small : a ≤ 2 ^ 52) (bound : |exact| ≤ a * unit) : |exact| ≤ 2 ^ (1022 : Int) := by
  have most : (a : Rat) ≤ 2 ^ 52 := by exact_mod_cast small
  refine bound.trans ((mul_le_mul_of_nonneg_right most unit_pos.le).trans_eq ?_)
  rw [unit, ← pow_add]
  rfl

/-- A result that is off by at most a unit. -/
theorem within_of_approximates (near : Approximates x exact (2 ^ (1022 - 52 : Int))) (bound : |exact| ≤ a * unit) :
    x.isFinite = true ∧ |value x| ≤ (a + 1 : Nat) * unit := by
  refine ⟨near.finite, (near.abs_le bound).trans_eq ?_⟩
  rw [Nat.cast_succ, add_one_mul]
  rfl

theorem Within.add (first : Within a x) (second : Within b y) : Within (a + b + 1) (x + y) := by
  intro small
  obtain ⟨finite, bound⟩ := first (by omega)
  obtain ⟨finite', bound'⟩ := second (by omega)
  have sum : |value x + value y| ≤ (a + b : Nat) * unit := by
    push_cast
    exact (abs_add_le _ _).trans (by linarith)
  exact within_of_approximates
    (approximates_add finite finite' (by decide) le_rfl (room (by omega) sum)) sum

theorem Within.sub (first : Within a x) (second : Within b y) : Within (a + b + 1) (x - y) := by
  intro small
  obtain ⟨finite, bound⟩ := first (by omega)
  obtain ⟨finite', bound'⟩ := second (by omega)
  have difference : |value x - value y| ≤ (a + b : Nat) * unit := by
    push_cast
    exact (abs_sub _ _).trans (by linarith)
  exact within_of_approximates
    (approximates_sub finite finite' (by decide) le_rfl (room (by omega) difference)) difference

theorem within_mul (finite : x.isFinite = true) (finite' : y.isFinite = true)
    (product : |value x * value y| ≤ c * unit) : Within (c + 1) (x * y) :=
  fun small => within_of_approximates
    (approximates_mul finite finite' (by decide) le_rfl (room (by omega) product)) product

theorem Within.mul (first : Within a x) (second : UpTo b y) (some : 0 < b) : Within (a * b + 1) (x * y) := by
  intro small
  obtain ⟨finite, bound⟩ := first ((Nat.le_mul_of_pos_right a some).trans (by omega))
  refine within_mul finite second.finite ?_ small
  rw [abs_mul]
  push_cast
  calc |value x| * |value y| ≤ (a * unit) * b :=
        mul_le_mul bound second.le (abs_nonneg _) (mul_nonneg (Nat.cast_nonneg _) unit_pos.le)
    _ = a * b * unit := by ring

theorem UpTo.mul (first : UpTo b x) (second : Within a y) (some : 0 < b) : Within (b * a + 1) (x * y) := by
  intro small
  obtain ⟨finite, bound⟩ := second ((Nat.le_mul_of_pos_left a some).trans (by omega))
  refine within_mul first.finite finite ?_ small
  rw [abs_mul]
  push_cast
  calc |value x| * |value y| ≤ b * (a * unit) :=
        mul_le_mul first.le bound (abs_nonneg _) (Nat.cast_nonneg _)
    _ = b * a * unit := by ring

theorem Within.div (first : Within a x) (finite' : y.isFinite = true) (large : 1 ≤ |value y|) :
    Within (a + 1) (x / y) := by
  intro small
  obtain ⟨finite, bound⟩ := first (by omega)
  have quotient : |value x / value y| ≤ a * unit := by
    rw [abs_div]
    exact (div_le_self (abs_nonneg _) large).trans bound
  have nonzero : value y ≠ 0 := by
    intro zero
    norm_num [zero] at large
  exact within_of_approximates
    (approximates_div finite finite' (by decide) le_rfl nonzero (room (by omega) quotient)) quotient

/-- Going to a place by way of its distance comes out at most two units beside it, however far it is. -/
theorem Within.reach (first : Within a x) (second : Within a y) : Within (a + 2) (x + (y - x)) := by
  intro small
  obtain ⟨finite, bound⟩ := first (by omega)
  obtain ⟨finite', bound'⟩ := second (by omega)
  have distance : |value y - value x| ≤ (a + a : Nat) * unit := by
    push_cast
    exact (abs_sub _ _).trans (by linarith)
  have near := approximates_sub finite' finite (by decide) le_rfl (room (by omega) distance)
  have off : |value (y - x) - (value y - value x)| ≤ unit := near.near
  have place : |value x + value (y - x)| ≤ (a + 1 : Nat) * unit := by
    have whole := abs_add_le (value y) (value (y - x) - (value y - value x))
    rw [show value y + (value (y - x) - (value y - value x)) = value x + value (y - x) by ring] at whole
    push_cast
    linarith
  exact within_of_approximates
    (approximates_add finite near.finite (by decide) le_rfl (room (by omega) place)) place

end results

section constants

/-- The size of a double in units of the least one. -/
def steps (x : Float) : Nat :=
  match decode x with
  | .nan | .infinite _ => 0
  | .finite _ mantissa exponent => mantissa * 2 ^ (exponent + 1074).toNat

theorem abs_value (x : Float) : |value x| = steps x / 2 ^ 1074 := by
  rw [value, steps]
  cases decoded : decode x with
  | nan | infinite => simp [Decoded.value]
  | finite negative mantissa exponent =>
    have least := (fits_of_decode decoded).least
    have shifted : (2 : Rat) ^ exponent = 2 ^ (exponent + 1074).toNat / 2 ^ 1074 := by
      rw [eq_div_iff (by positivity), ← zpow_natCast, ← zpow_natCast, ← zpow_add₀ two_ne_zero]
      congr 1
      omega
    have size : |(if negative then -1 else 1) * (mantissa * 2 ^ exponent : Rat)| = mantissa * 2 ^ exponent := by
      cases negative <;> simp [abs_mul, abs_of_nonneg (zpow_pos (two_pos (α := Rat)) exponent).le]
    rw [Decoded.value, size, shifted, mul_div_assoc', Nat.cast_mul, Nat.cast_pow, Nat.cast_ofNat]

theorem upTo_of_steps (finite : x.isFinite = true) (le : steps x ≤ c * 2 ^ 1074) : UpTo c x := by
  refine ⟨finite, ?_⟩
  rw [abs_value, div_le_iff₀ (by positivity)]
  exact_mod_cast le

theorem within_of_steps (finite : x.isFinite = true) (le : steps x ≤ a * 2 ^ 970 * 2 ^ 1074) : Within a x := by
  intro _
  refine ⟨finite, ?_⟩
  rw [abs_value, div_le_iff₀ (by positivity), unit]
  exact_mod_cast le

theorem one_le_of_steps (le : 2 ^ 1074 ≤ steps x) : 1 ≤ |value x| := by
  rw [abs_value, le_div_iff₀ (by positivity), one_mul]
  exact_mod_cast le

theorem UpTo.within (upTo : UpTo c x) (small : c ≤ 2 ^ 51) : Within 1 x := by
  intro _
  have most : (c : Rat) ≤ 2 ^ 51 := by exact_mod_cast small
  refine ⟨upTo.finite, upTo.le.trans (most.trans ?_)⟩
  rw [Nat.cast_one, one_mul, unit]
  exact pow_le_pow_right₀ one_le_two (by decide)

theorem UpTo.within_zero (upTo : UpTo 0 x) : Within 0 x := by
  intro _
  refine ⟨upTo.finite, upTo.le.trans_eq ?_⟩
  rw [Nat.cast_zero, zero_mul]

theorem within_zero : Within 0 0.0 :=
  (upTo_of_steps (by decide +kernel) (by decide +kernel)).within_zero

theorem within_default : Within 0 default :=
  (upTo_of_steps (by decide +kernel) (by decide +kernel)).within_zero

theorem Within.half (within : Within a x) : Within (a + 1) (x / 2.0) :=
  within.div (by decide +kernel) (one_le_of_steps (by decide +kernel))

theorem Within.quarter (within : Within a x) : Within (a + 1) (x / 4.0) :=
  within.div (by decide +kernel) (one_le_of_steps (by decide +kernel))

/-- Natural numbers of up to fifty digits become doubles without an error that matters here. -/
theorem upTo_ofNat {n : Nat} (small : n ≤ 2 ^ 50) : UpTo (n + 1) (Float.ofNat n) := by
  have most : (n : Rat) ≤ 2 ^ 50 := by exact_mod_cast small
  have size : n.toUInt64.toNat = n := by
    rw [UInt64.toNat_ofNat', Nat.mod_eq_of_lt (by omega)]
  have converted : Approximates n.toUInt64.toFloat n (2 ^ (50 - 52 : Int)) := by
    have isNormal : n.toUInt64.toFloat = packed (.normalize .binary64 n.toUInt64.toNat 0 .positive) := rfl
    rw [isNormal, size]
    have near : Approximates (packed (.normalize .binary64 n 0 .positive)) ((n : Int) * 2 ^ (0 : Int)) _ :=
      approximates_normalize .positive (by decide) (by decide) (n := 50) (by simpa using most)
    simpa using near
  -- A numeral without an exponent is still multiplied by the power of ten that it has none of.
  have scaled : Float.ofNat n = n.toUInt64.toFloat * Float.exactlyRepresentablePowersOfTen[0] := by
    show Float.ofScientific n false 0 = _
    rw [Float.ofScientific, dif_pos ⟨by omega, by decide⟩]
    rfl
  have one : UpTo 1 Float.exactlyRepresentablePowersOfTen[0] :=
    upTo_of_steps (by decide +kernel) (by decide +kernel)
  have input : |value n.toUInt64.toFloat| ≤ n + 2 ^ (50 - 52 : Int) := converted.abs_le (Nat.abs_cast n).le
  have product : |value n.toUInt64.toFloat * value Float.exactlyRepresentablePowersOfTen[0]| ≤
      n + 2 ^ (50 - 52 : Int) := by
    rw [abs_mul]
    exact (mul_le_of_le_one_right (abs_nonneg _) (by simpa using one.le)).trans input
  have near := approximates_mul (n := 51) converted.finite one.finite (by decide) (by decide)
    (product.trans (by norm_num; linarith))
  rw [scaled]
  refine ⟨near.finite, (near.abs_le product).trans ?_⟩
  norm_num
  linarith

end constants

section order

variable {xs : List Float}

theorem Within.larger (first : Within a x) (second : Within a y) : Within a (Coordinate.larger x y) := by
  rw [Coordinate.larger]
  split
  · exact second
  · exact first

theorem Within.smaller (first : Within a x) (second : Within a y) : Within a (Coordinate.smaller x y) := by
  rw [Coordinate.smaller]
  split
  · exact second
  · exact first

theorem within_foldl {f : Float → Float → Float} (keeps : ∀ x y, Within a x → Within a y → Within a (f x y))
    (start : Within a x) (each : ∀ y ∈ xs, Within a y) : Within a (xs.foldl f x) := by
  induction xs generalizing x with
  | nil => exact start
  | cons y xs ih =>
    obtain ⟨first, each⟩ := List.forall_mem_cons.1 each
    exact ih (keeps x y start first) each

theorem within_maximum (each : ∀ y ∈ xs, Within a y) : Within a (Coordinate.maximum xs) := by
  cases xs with
  | nil => exact within_zero.mono (Nat.zero_le a)
  | cons x xs =>
    obtain ⟨first, each⟩ := List.forall_mem_cons.1 each
    exact within_foldl (fun _ _ => Within.larger) first each

theorem within_minimum (each : ∀ y ∈ xs, Within a y) : Within a (Coordinate.minimum xs) := by
  cases xs with
  | nil => exact within_zero.mono (Nat.zero_le a)
  | cons x xs =>
    obtain ⟨first, each⟩ := List.forall_mem_cons.1 each
    exact within_foldl (fun _ _ => Within.smaller) first each

/-- A sum of many numbers is rounded at every step. -/
theorem within_sum (start : Within b x) (each : ∀ y ∈ xs, Within a y) :
    Within (b + xs.length * (a + 1)) (xs.foldl (· + ·) x) := by
  induction xs generalizing x b with
  | nil => exact start.mono (Nat.le_add_right _ _)
  | cons y xs ih =>
    obtain ⟨first, each⟩ := List.forall_mem_cons.1 each
    refine (ih (start.add first) each).mono ?_
    rw [List.length_cons, Nat.succ_mul]
    omega

theorem within_total (each : ∀ y ∈ xs, Within a y) : Within (xs.length * (a + 1)) (Coordinate.total xs) :=
  (within_sum within_zero each).mono (Nat.zero_add _).le

end order

end Flowchart.Number
