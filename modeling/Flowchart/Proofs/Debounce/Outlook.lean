import Flowchart.Proofs.Debounce.Cancellation
import Mathlib.Data.List.Induction

/-!
What a debouncer will do if nothing more is asked of it, and what its pending run says about that. A run stays the
pending one until its timer fires, another one is scheduled or the pending one is cancelled, and a cancelled handle
does not end its turn. So the pending run foretells what is executed except while it is one that was cancelled itself.
-/
namespace Flowchart.Debouncer

variable {α : Type} {state start : Debouncer α} {acts before after : List (Act α)} {number : Nat}

/-- The job of a run is the next to be done, at the time of the run, if nothing more is asked. -/
def Impends (state : Debouncer α) (number : Nat) : Prop :=
  ∃ run, state.runs[number]? = some run ∧ run.fired = false ∧ run.cancelled = false ∧
    ∀ time, run.due ≤ state.now + time →
      ∃ more, executions state ((Step.advance time).acts false state) = ⟨number, run.due, run.job.action⟩ :: more

/-- No job is done, however much time passes, if nothing more is asked. -/
def IsStill (state : Debouncer α) : Prop :=
  ∀ time, executions state ((Step.advance time).acts false state) = []

/-- The pending run tells what will be executed. -/
structure IsAccurate (state : Debouncer α) : Prop where
  pending : ∀ number, state.pending = some number ↔ Impends state number
  none : state.pending = none ↔ IsStill state

section pending

/-- What ends the turn of a run as the pending one. -/
def Dismisses (number : Nat) : Act α → Prop
  | .schedule _ | .cancelPending => True
  | .fire fired => fired = number
  | .cancel _ | .moveTo _ => False

theorem Tracks.pending_act (tracks : Tracks state) (act : Act α) : (state.act act).pending = some number ↔
    (∃ job, act = .schedule job) ∧ state.runs.length = number ∨
      ¬Dismisses number act ∧ state.pending = some number := by
  cases act with
  | schedule job =>
    have isPending : (state.schedule job).pending = some state.runs.length :=
      congrArg some (length_cancelPending state)
    simp [Debouncer.act, isPending, Dismisses]
  | cancelPending => simp [Debouncer.act, pending_cancelPending, Dismisses]
  | cancel => simp [Debouncer.act, Debouncer.cancel, Dismisses]
  | moveTo => simp [Debouncer.act, Debouncer.moveTo, Dismisses]
  | fire fired =>
    simp only [Debouncer.act, Dismisses, reduceCtorEq, exists_false, false_and, false_or]
    cases starts : state.startable? fired with
    | some job =>
      refine iff_of_false (fun isPending => by cases isPending) ?_
      rintro ⟨other, isPending⟩
      exact other ((tracks.startable_iff isPending).1 ⟨job, starts⟩)
    | none =>
      refine (and_iff_right_of_imp fun isPending same => ?_).symm
      obtain ⟨job, isJob⟩ := (tracks.startable_iff isPending).2 same
      rw [starts] at isJob
      cases isJob

/-- The pending run is the one that was scheduled last, if nothing has ended its turn since. -/
theorem Tracks.pending_foldl (tracks : Tracks start) (none : start.pending = none) :
    (acts.foldl Debouncer.act start).pending = some number ↔ ∃ before job quiet,
      acts = before ++ .schedule job :: quiet ∧ (before.foldl Debouncer.act start).runs.length = number ∧
        ∀ act ∈ quiet, ¬Dismisses number act := by
  induction acts using List.reverseRecOn with
  | nil => simp [none]
  | append_singleton acts last ih =>
    rw [List.foldl_append, List.foldl_cons, List.foldl_nil, (tracks.foldl acts).pending_act, ih]
    constructor
    · rintro (⟨⟨job, rfl⟩, isNumber⟩ | ⟨stays, before, job, quiet, rfl, isNumber, undisturbed⟩)
      · exact ⟨acts, job, [], rfl, isNumber, fun _ mem => absurd mem List.not_mem_nil⟩
      · refine ⟨before, job, quiet ++ [last], by simp, isNumber, ?_⟩
        rw [List.forall_mem_append]
        exact ⟨undisturbed, List.forall_mem_singleton.2 stays⟩
    · rintro ⟨before, job, quiet, split, isNumber, undisturbed⟩
      rcases List.eq_nil_or_concat quiet with rfl | ⟨quiet, final, rfl⟩
      · obtain ⟨rfl, isLast⟩ := List.append_inj' split rfl
        exact .inl ⟨⟨job, List.singleton_inj.1 isLast⟩, isNumber⟩
      · rw [List.concat_eq_append] at split undisturbed
        rw [← List.cons_append, ← List.append_assoc] at split
        obtain ⟨rfl, isFinal⟩ := List.append_inj' split rfl
        rw [List.forall_mem_append, ← List.singleton_inj.1 isFinal] at undisturbed
        exact .inr ⟨undisturbed.2 _ List.mem_cons_self, before, job, quiet, rfl, isNumber, undisturbed.1⟩

end pending

section outlook

/-- Wherever the loop stands, the debouncer is in order. -/
theorem Orderly.of_split {before after : List (Act α)} (orderly : Orderly state) (kept : Kept false state acts)
    (split : acts = before ++ after) : Orderly (before.foldl Debouncer.act state) :=
  kept.holds (fun isAsked orderly => orderly.asked isAsked) (fun none orderly => orderly.passed none)
    (fun found isRun orderly => orderly.moveToDue isRun (isWaiting_of_firstDue? found isRun))
    (fun found isRun orderly => orderly.fired found isRun) split orderly

/-- The timer that waits alone starts its job if the clock comes that far and its run has the generation. -/
theorem Lone.impends (lone : Lone state) {run : Run α} (isRun : state.runs[number]? = some run)
    (waits : run.isWaiting false = true) (isCurrent : run.generation = state.generation) : Impends state number := by
  have unsettled : run.fired = false ∧ run.cancelled = false := by
    simpa [Run.isWaiting] using waits
  refine ⟨run, isRun, unsettled.1, unsettled.2, fun time isDue => ?_⟩
  have less := work_fireAtDue_lt isRun waits
  obtain ⟨fuel, isFuel⟩ := Nat.exists_eq_add_one.2 (Nat.zero_lt_of_lt less)
  rw [Step.acts, isFuel, settling, lone.firstDue?_eq isRun waits isDue]
  simp only [firing_of_current isRun isCurrent, List.cons_append]
  exact ⟨_, executions_current isRun isCurrent (lone.alone isRun waits).2⟩

theorem Orderly.impends (orderly : Orderly state) {run : Run α} (isRun : state.runs[number]? = some run)
    (waits : run.isWaiting false = true) : Impends state number :=
  orderly.lone.impends isRun waits (orderly.generation_eq isRun waits)

theorem isStill_of_settled (settled : ∀ {number : Nat} {run : Run α},
    state.runs[number]? = some run → run.isWaiting false = false) : IsStill state := by
  intro time
  rw [Step.acts, settling_of_none (firstDue?_none_of fun isRun waits => ?_)]
  · rfl
  · rw [settled isRun] at waits
    cases waits

theorem not_isStill_of_impends (impends : Impends state number) : ¬IsStill state := by
  intro still
  obtain ⟨run, -, -, -, executed⟩ := impends
  obtain ⟨more, isMore⟩ := executed run.due (Nat.le_add_left ..)
  rw [still] at isMore
  cases isMore

/-- A timer waits exactly if it is that of the pending run and the run is not reported as cancelled. -/
theorem Tracks.waits_iff (tracks : Tracks state) (orderly : Orderly state) :
    (∃ run, state.runs[number]? = some run ∧ run.isWaiting false = true) ↔
      state.pending = some number ∧ ¬Reports state number := by
  constructor
  · rintro ⟨run, isRun, waits⟩
    refine ⟨(orderly.alone isRun waits).1, ?_⟩
    rintro ⟨same, isSame, isCancelled⟩
    obtain rfl := Option.some.inj (isSame.symm.trans isRun)
    rw [Run.not_isWaiting_of_cancelled isCancelled] at waits
    cases waits
  · rintro ⟨isPending, unreported⟩
    obtain ⟨isLast, unfired⟩ := tracks.pending isPending
    have isRun : state.runs[number]? = some state.runs[number] := List.getElem?_eq_getElem (by omega)
    refine ⟨_, isRun, ?_⟩
    have fired : state.runs[number].fired = false := Bool.eq_false_iff.2 fun isFired => unfired ⟨_, isRun, isFired⟩
    have cancelled : state.runs[number].cancelled = false :=
      Bool.eq_false_iff.2 fun isCancelled => unreported ⟨_, isRun, isCancelled⟩
    simp [Run.isWaiting, fired, cancelled]

end outlook

/-- What the pending run of a state on the way says about what comes. -/
structure Foretells (start : Debouncer α) (acts : List (Act α)) : Prop where
  impends_iff : ∀ number, Impends (acts.foldl act start) number ↔
    (acts.foldl act start).pending = some number ∧ ¬Reports (acts.foldl act start) number
  still_iff : IsStill (acts.foldl act start) ↔
    ∀ number, (acts.foldl act start).pending = some number → Reports (acts.foldl act start) number
  accurate_iff : IsAccurate (acts.foldl act start) ↔
    ∀ number, (acts.foldl act start).pending = some number → ¬Reports (acts.foldl act start) number
  pending_iff : ∀ number, (acts.foldl act start).pending = some number ↔
    ∃ before job quiet, acts = before ++ .schedule job :: quiet ∧
      (before.foldl act start).runs.length = number ∧ ∀ act ∈ quiet, ¬Dismisses number act

theorem foretells_of_history (delay : Nat) (steps : List (Step α)) {acts : List (Act α)}
    (reached : acts <+: history false { delay } steps) : Foretells { delay } acts := by
  obtain ⟨after, split⟩ := reached
  have tracks : Tracks (acts.foldl act { delay }) := (tracks_start delay).foldl acts
  have orderly : Orderly (acts.foldl act { delay }) := (orderly_start delay).of_split (kept_history _ steps) split.symm
  have impends_iff (number : Nat) : Impends (acts.foldl act { delay }) number ↔
      (acts.foldl act { delay }).pending = some number ∧ ¬Reports (acts.foldl act { delay }) number := by
    rw [← tracks.waits_iff orderly]
    constructor
    · rintro ⟨run, isRun, unfired, uncancelled, -⟩
      exact ⟨run, isRun, by simp [Run.isWaiting, unfired, uncancelled]⟩
    · rintro ⟨run, isRun, waits⟩
      exact orderly.impends isRun waits
  have still_iff : IsStill (acts.foldl act { delay }) ↔
      ∀ number, (acts.foldl act { delay }).pending = some number → Reports (acts.foldl act { delay }) number := by
    constructor
    · intro still number isPending
      apply Classical.byContradiction
      exact fun unreported => not_isStill_of_impends ((impends_iff number).2 ⟨isPending, unreported⟩) still
    · intro reported
      refine isStill_of_settled fun {number} {run} isRun => Bool.eq_false_iff.2 fun waits => ?_
      obtain ⟨isPending, unreported⟩ := (tracks.waits_iff orderly).1 ⟨run, isRun, waits⟩
      exact unreported (reported number isPending)
  refine ⟨impends_iff, still_iff, ?accurate_iff, fun number => (tracks_start delay).pending_foldl rfl⟩
  case accurate_iff =>
    constructor
    · intro accurate number isPending
      exact ((impends_iff number).1 ((accurate.pending number).1 isPending)).2
    · intro unreported
      constructor
      · intro number
        rw [impends_iff]
        exact (and_iff_left_of_imp (unreported number)).symm
      · rw [still_iff, Option.eq_none_iff_forall_ne_some]
        exact forall_congr' fun number => ⟨fun other isPending => absurd isPending other,
          fun reported isPending => unreported number isPending (reported isPending)⟩

/-- A handle that is cancelled while its run is pending: the run stays the pending one, and no job will be done. -/
theorem foretells_of_history_cancelled :
    let acts : List (Act Char) := [.schedule (.once 'a'), .cancel 0]
    acts <+: history false { delay := 300 } [.schedule (.once 'a'), .cancel 0] ∧ Foretells { delay := 300 } acts ∧
      (acts.foldl act { delay := 300 }).pending = some 0 ∧ IsStill (acts.foldl act { delay := 300 }) := by
  have reached : [.schedule (.once 'a'), .cancel 0] <+:
      history false { delay := 300 } [.schedule (.once 'a'), .cancel 0] := List.prefix_refl _
  have foretells := foretells_of_history 300 _ reached
  refine ⟨reached, foretells, rfl, foretells.still_iff.2 ?_⟩
  intro number isPending
  obtain rfl : 0 = number := Option.some.inj isPending
  exact ⟨_, rfl, rfl⟩

theorem not_isAccurate_of_cancel :
    ¬IsAccurate (run false { delay := 300 } [.schedule (.once 'a'), .cancel 0]) := by
  intro accurate
  obtain ⟨run, isRun, -, uncancelled, -⟩ := (accurate.pending 0).1 rfl
  obtain rfl := Option.some.inj isRun
  cases uncancelled

end Flowchart.Debouncer
