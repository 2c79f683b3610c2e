import Flowchart.Number.Coordinate
import Mathlib.Algebra.Order.Field.Rat
import Mathlib.Tactic.Linarith
import Mathlib.Tactic.NormNum

/-!
Coordinates that are exact rationals. The choices among them are maxima and minima, and so the extremes of a list
are among its numbers and bound them.
-/
namespace Flowchart.Coordinate

variable {numbers : List Rat} {a b : Rat}

@[simp] theorem zero_eq : (0.0 : Rat) = 0 := by norm_num

@[simp] theorem two_eq : (2.0 : Rat) = 2 := by norm_num

@[simp] theorem three_eq : (3.0 : Rat) = 3 := by norm_num

@[simp] theorem four_eq : (4.0 : Rat) = 4 := by norm_num

theorem larger_eq_max (a b : Rat) : larger a b = max a b := by
  rw [larger]
  split
  · exact (max_eq_right_of_lt ‹_›).symm
  · exact (max_eq_left (not_lt.1 ‹_›)).symm

theorem smaller_eq_min (a b : Rat) : smaller a b = min a b := by
  rw [smaller]
  split
  · exact (min_eq_right_of_lt ‹_›).symm
  · exact (min_eq_left (not_lt.1 ‹_›)).symm

theorem magnitude_eq_abs (a : Rat) : magnitude a = |a| := by
  rw [magnitude, zero_eq]
  split
  · exact (abs_of_neg ‹_›).symm
  · exact (abs_of_nonneg (not_lt.1 ‹_›)).symm

theorem foldl_mem {choose : Rat → Rat → Rat} (chooses : ∀ a b, choose a b = a ∨ choose a b = b) (first : Rat)
    (rest : List Rat) : rest.foldl choose first ∈ first :: rest := by
  induction rest generalizing first with
  | nil => exact List.mem_cons_self
  | cons second rest ih =>
    rw [List.foldl_cons]
    rcases List.mem_cons.1 (ih (choose first second)) with same | mem
    · rcases chooses first second with isFirst | isSecond
      · rw [same, isFirst]
        exact List.mem_cons_self
      · rw [same, isSecond]
        exact List.mem_cons_of_mem _ List.mem_cons_self
    · exact List.mem_cons_of_mem _ (List.mem_cons_of_mem _ mem)

/-- A choice that goes with an order at every step goes with it in the end. -/
theorem foldl_bound {choose : Rat → Rat → Rat} (below : Rat → Rat → Prop) (refl : ∀ a, below a a)
    (trans : ∀ {a b c}, below a b → below b c → below a c)
    (bounds : ∀ a b, below a (choose a b) ∧ below b (choose a b)) (first : Rat) (rest : List Rat) :
    ∀ number ∈ first :: rest, below number (rest.foldl choose first) := by
  induction rest generalizing first with
  | nil =>
    intro number mem
    rw [List.mem_singleton.1 mem]
    exact refl first
  | cons second rest ih =>
    have ⟨chosen, others⟩ := List.forall_mem_cons.1 (ih (choose first second))
    have ⟨overFirst, overSecond⟩ := bounds first second
    refine List.forall_mem_cons.2 ⟨trans overFirst chosen, ?_⟩
    exact List.forall_mem_cons.2 ⟨trans overSecond chosen, others⟩

theorem maximum_mem (some : numbers ≠ []) : maximum numbers ∈ numbers := by
  cases numbers with
  | nil => exact absurd rfl some
  | cons first rest =>
    exact foldl_mem (fun a b => (larger_eq_max a b) ▸ max_choice a b) first rest

theorem le_maximum (mem : a ∈ numbers) : a ≤ maximum numbers := by
  cases numbers with
  | nil => cases mem
  | cons first rest =>
    refine foldl_bound (· ≤ ·) le_refl le_trans (fun a b => ?_) first rest a mem
    rw [larger_eq_max]
    exact ⟨le_max_left a b, le_max_right a b⟩

theorem minimum_mem (some : numbers ≠ []) : minimum numbers ∈ numbers := by
  cases numbers with
  | nil => exact absurd rfl some
  | cons first rest =>
    exact foldl_mem (fun a b => (smaller_eq_min a b) ▸ min_choice a b) first rest

theorem minimum_le (mem : a ∈ numbers) : minimum numbers ≤ a := by
  cases numbers with
  | nil => cases mem
  | cons first rest =>
    refine foldl_bound (· ≥ ·) le_refl (fun upper above => le_trans above upper) (fun a b => ?_) first rest a mem
    rw [smaller_eq_min]
    exact ⟨min_le_left a b, min_le_right a b⟩

theorem total_eq_sum (numbers : List Rat) : total numbers = numbers.sum := by
  rw [total, zero_eq, List.sum_eq_foldl]

end Flowchart.Coordinate
