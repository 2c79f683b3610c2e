import Mathlib.Data.List.Forall2

/-!
Two runs side by side. Lists are related if their members are, one by one, and results of computations that can fail
are related if both fail for the same reason or both give related values.
-/
namespace Flowchart

variable {α β γ δ ε : Type} {related : α → β → Prop} {front : List α} {back : List β}

theorem map_eq_of_forall₂ {f : α → γ} {g : β → γ} (both : List.Forall₂ related front back)
    (same : ∀ a b, related a b → g b = f a) : back.map g = front.map f := by
  induction both with
  | nil => rfl
  | cons related _ ih => rw [List.map_cons, List.map_cons, same _ _ related, ih]

theorem flatMap_eq_of_forall₂ {f : α → List γ} {g : β → List γ} (both : List.Forall₂ related front back)
    (same : ∀ a b, related a b → g b = f a) : back.flatMap g = front.flatMap f := by
  rw [List.flatMap_def, List.flatMap_def, map_eq_of_forall₂ both same]

/-- The parts of a list that is related to two lists behind each other. -/
theorem forall₂_append_split {ahead behind : List α} {whole : List β}
    (both : List.Forall₂ related (ahead ++ behind) whole) : ∃ first second, whole = first ++ second ∧
      List.Forall₂ related ahead first ∧ List.Forall₂ related behind second := by
  induction ahead generalizing whole with
  | nil => exact ⟨[], whole, rfl, .nil, both⟩
  | cons a ahead ih =>
    obtain ⟨b, rest, head, tail, rfl⟩ := List.forall₂_cons_left_iff.1 both
    obtain ⟨first, second, rfl, isAhead, isBehind⟩ := ih tail
    exact ⟨b :: first, second, rfl, .cons head isAhead, isBehind⟩

theorem findSome?_eq_of_forall₂ {f : α → Option γ} {g : β → Option γ} (both : List.Forall₂ related front back)
    (same : ∀ a b, related a b → g b = f a) : back.findSome? g = front.findSome? f := by
  have found := congrArg (List.findSome? id) (map_eq_of_forall₂ both same)
  rwa [List.findSome?_map, List.findSome?_map] at found

theorem map_eq_of_rel {f : α → γ} {g : β → γ} {first : Option α} {second : Option β}
    (both : Option.Rel related first second) (same : ∀ a b, related a b → g b = f a) :
    second.map g = first.map f := by
  cases both with
  | none => rfl
  | some isRelated => exact congrArg some (same _ _ isRelated)

theorem rel_getD {first : Option α} {second : Option β} {a : α} {b : β} (both : Option.Rel related first second)
    (isRelated : related a b) : related (first.getD a) (second.getD b) := by
  cases both with
  | none => exact isRelated
  | some isRelated => exact isRelated

section predicates

variable {p : α → Bool} {q : β → Bool} (both : List.Forall₂ related front back)
  (same : ∀ a b, related a b → q b = p a)
include both same

theorem countP_eq_of_forall₂ : back.countP q = front.countP p := by
  have counts := congrArg (List.countP id) (map_eq_of_forall₂ both same)
  rwa [List.countP_map, List.countP_map] at counts

theorem any_eq_of_forall₂ : back.any q = front.any p := by
  have found := congrArg (List.any · id) (map_eq_of_forall₂ both same)
  rwa [List.any_map, List.any_map] at found

theorem forall₂_filter : List.Forall₂ related (front.filter p) (back.filter q) := by
  refine List.rel_filter ?_ both
  intro a b isRelated
  exact Bool.eq_iff_iff.1 (same a b isRelated).symm

theorem rel_find? : Option.Rel related (front.find? p) (back.find? q) := by
  induction both with
  | nil => exact .none
  | @cons a b _ _ isRelated _ ih =>
    rw [List.find?_cons, List.find?_cons, same a b isRelated]
    cases p a with
    | true => exact .some isRelated
    | false => exact ih

end predicates

/-- Both results are failures for the same reason, or both are values that are related. -/
inductive Agrees (related : α → β → Prop) : Except ε α → Except ε β → Prop where
  | error (reason : ε) : Agrees related (.error reason) (.error reason)
  | ok {a : α} {b : β} : related a b → Agrees related (.ok a) (.ok b)

variable {behind : γ → δ → Prop}

theorem Agrees.bind {first : Except ε α} {second : Except ε β} {next : α → Except ε γ} {other : β → Except ε δ}
    (agrees : Agrees related first second) (go : ∀ a b, related a b → Agrees behind (next a) (other b)) :
    Agrees behind (first >>= next) (second >>= other) := by
  cases agrees with
  | error reason => exact .error reason
  | ok isRelated => exact go _ _ isRelated

theorem Agrees.map_eq {f : α → γ} {g : β → γ} {first : Except ε α} {second : Except ε β}
    (agrees : Agrees related first second) (same : ∀ a b, related a b → g b = f a) :
    second.map g = first.map f := by
  cases agrees with
  | error reason => rfl
  | ok isRelated => exact congrArg Except.ok (same _ _ isRelated)

/-- What a computation gives, without the reason for which it could have failed. -/
theorem ok_of_toOption {result : Except ε α} {a : α} (given : result.toOption = some a) : result = .ok a := by
  cases result with
  | error reason => cases given
  | ok value => exact congrArg Except.ok (Option.some.inj given)

theorem error_of_toOption {result : Except ε α} (none : result.toOption = none) : ∃ reason, result = .error reason := by
  cases result with
  | error reason => exact ⟨reason, rfl⟩
  | ok value => cases none

/-- Loops whose steps agree agree. -/
theorem agrees_foldlM {step : γ → α → Except ε γ} {other : δ → β → Except ε δ}
    (steps : ∀ a b, related a b → ∀ c d, behind c d → Agrees behind (step c a) (other d b))
    (both : List.Forall₂ related front back) {c : γ} {d : δ} (start : behind c d) :
    Agrees behind (front.foldlM step c) (back.foldlM other d) := by
  induction both generalizing c d with
  | nil => exact .ok start
  | cons isRelated _ ih =>
    rw [List.foldlM_cons, List.foldlM_cons]
    exact (steps _ _ isRelated _ _ start).bind fun _ _ => ih

end Flowchart
