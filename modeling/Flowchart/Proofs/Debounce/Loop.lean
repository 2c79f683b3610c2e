import Flowchart.Proofs.Debounce.History

/-!
The promise of the loop behind a debouncer: the clock passes no timer that waits, and a timer that it comes
to fires at once. Every history keeps the promise, because a step has as many turns as there is work.
-/
namespace Flowchart.Debouncer

variable {α : Type} {stubborn : Bool} {until_ number fuel : Nat} {runs : List (Run α)} {state : Debouncer α}

/-- The earlier of the best run so far and another one, the best of equals. -/
def earlier (best : Option (Run α × Nat)) (item : Run α × Nat) : Option (Run α × Nat) :=
  match best with
  | some (first, _) => if item.1.due < first.due then some item else best
  | none => some item

theorem earlier_cases (best : Option (Run α × Nat)) (item : Run α × Nat) :
    earlier best item = some item ∨ earlier best item = best ∧ best.isSome = true := by
  cases best with
  | none => exact .inl rfl
  | some first =>
    by_cases before : item.1.due < first.1.due
    · exact .inl (if_pos before)
    · exact .inr ⟨if_neg before, rfl⟩

theorem mem_of_foldl_earlier {items : List (Run α × Nat)} {best : Option (Run α × Nat)} {found : Run α × Nat}
    (ends : items.foldl earlier best = some found) : found ∈ items ∨ best = some found := by
  induction items generalizing best with
  | nil => exact .inr ends
  | cons item items ih =>
    rcases ih ends with mem | chosen
    · exact .inl (List.mem_cons_of_mem _ mem)
    · rcases earlier_cases best item with new | ⟨old, -⟩
      · rw [new] at chosen
        cases chosen
        exact .inl List.mem_cons_self
      · exact .inr (old ▸ chosen)

theorem isSome_foldl_earlier {items : List (Run α × Nat)} {best : Option (Run α × Nat)}
    (any : best.isSome = true ∨ items ≠ []) : (items.foldl earlier best).isSome = true := by
  induction items generalizing best with
  | nil => exact any.resolve_right (· rfl)
  | cons item items ih =>
    refine ih (.inl ?_)
    rcases earlier_cases best item with new | ⟨old, isSome⟩
    · rw [new]
      rfl
    · rw [old]
      exact isSome

/-- The runs among which the first is searched. -/
def dueRuns (stubborn : Bool) (until_ : Nat) (runs : List (Run α)) : List (Run α × Nat) :=
  runs.zipIdx.filter fun (run, _) => run.isWaiting stubborn && run.due ≤ until_

theorem firstDue?_eq (stubborn : Bool) (until_ : Nat) (runs : List (Run α)) :
    firstDue? stubborn until_ runs = ((dueRuns stubborn until_ runs).foldl earlier none).map (·.2) := by
  rfl

theorem mem_dueRuns {run : Run α} : (run, number) ∈ dueRuns stubborn until_ runs ↔
    runs[number]? = some run ∧ run.isWaiting stubborn = true ∧ run.due ≤ until_ := by
  rw [dueRuns, List.mem_filter, List.mem_zipIdx_iff_getElem?, Bool.and_eq_true, decide_eq_true_eq]

/-- The timer that is found waits and is due. -/
theorem firstDue?_eq_some (found : firstDue? stubborn until_ runs = some number) :
    ∃ run, runs[number]? = some run ∧ run.isWaiting stubborn = true ∧ run.due ≤ until_ := by
  rw [firstDue?_eq] at found
  obtain ⟨⟨run, place⟩, isFirst, rfl⟩ := Option.map_eq_some_iff.1 found
  rcases mem_of_foldl_earlier isFirst with mem | none
  · exact ⟨run, mem_dueRuns.1 mem⟩
  · cases none

theorem isWaiting_of_firstDue? (found : firstDue? stubborn until_ runs = some number) {run : Run α}
    (isRun : runs[number]? = some run) : run.isWaiting stubborn = true := by
  obtain ⟨first, isFirst, waits, -⟩ := firstDue?_eq_some found
  obtain rfl : first = run := Option.some.inj (isFirst.symm.trans isRun)
  exact waits

theorem firstDue?_eq_none (found : firstDue? stubborn until_ runs = none) {run : Run α}
    (isRun : runs[number]? = some run) (waits : run.isWaiting stubborn = true) : until_ < run.due := by
  refine Nat.lt_of_not_le fun isDue => ?_
  have any : ((dueRuns stubborn until_ runs).foldl earlier none).isSome = true :=
    isSome_foldl_earlier (.inr (List.ne_nil_of_mem (mem_dueRuns.2 ⟨isRun, waits, isDue⟩)))
  rw [firstDue?_eq, Option.map_eq_none_iff] at found
  rw [found] at any
  cases any

/-- Nothing is due while every timer that waits has a later time. -/
theorem firstDue?_none_of (late : ∀ {number : Nat} {run : Run α},
    runs[number]? = some run → run.isWaiting stubborn = true → until_ < run.due) :
    firstDue? stubborn until_ runs = none := by
  cases found : firstDue? stubborn until_ runs with
  | none => rfl
  | some number =>
    obtain ⟨run, isRun, waits, isDue⟩ := firstDue?_eq_some found
    exact absurd isDue (Nat.not_le_of_lt (late isRun waits))

/-- The jobs whose timers have not fired. -/
def unfired (runs : List (Run α)) : List (Job α) :=
  (runs.filter (!·.fired)).map (·.job)

theorem work_eq (state : Debouncer α) : state.work = Job.sizeAll (unfired state.runs) := rfl

theorem sizeAll_append (front back : List (Job α)) :
    Job.sizeAll (front ++ back) = Job.sizeAll front + Job.sizeAll back := by
  induction front with
  | nil => simp [Job.sizeAll]
  | cons job front ih => rw [List.cons_append, Job.sizeAll, Job.sizeAll, ih, Nat.add_assoc]

theorem unfired_cons (run : Run α) (runs : List (Run α)) :
    unfired (run :: runs) = (if run.fired then [] else [run.job]) ++ unfired runs := by
  cases isFired : run.fired <;> simp [unfired, isFired]

/-- A change of a run that leaves its job and its timer leaves the work. -/
theorem unfired_modify {change : Run α → Run α}
    (keeps : ∀ run, (change run).fired = run.fired ∧ (change run).job = run.job) (number : Nat) :
    unfired (runs.modify number change) = unfired runs := by
  induction runs generalizing number with
  | nil => rw [List.modify_nil]
  | cons run runs ih =>
    cases number with
    | zero => rw [List.modify_zero_cons, unfired_cons, unfired_cons, (keeps run).1, (keeps run).2]
    | succ number => rw [List.modify_succ_cons, unfired_cons, unfired_cons, ih]

theorem work_cancel (state : Debouncer α) (number : Nat) : (state.cancel number).work = state.work := by
  rw [work_eq, work_eq, cancel, unfired_modify]
  exact fun _ => ⟨rfl, rfl⟩

theorem work_cancelPending (state : Debouncer α) : state.cancelPending.work = state.work := by
  cases isPending : state.pending with
  | none => rw [cancelPending, isPending]
  | some number =>
    rw [cancelPending, isPending]
    exact work_cancel state number

theorem work_schedule (state : Debouncer α) (job : Job α) : (state.schedule job).work = state.work + job.size := by
  have before : Job.sizeAll (unfired state.giveUp.runs) = state.work := work_cancelPending state
  rw [work_eq, schedule]
  simp only [unfired, List.filter_append, List.map_append, sizeAll_append] at before ⊢
  rw [before]
  simp [Job.sizeAll]

theorem work_schedules (state : Debouncer α) (jobs : List (Job α)) :
    (jobs.foldl schedule state).work = state.work + Job.sizeAll jobs := by
  induction jobs generalizing state with
  | nil => simp [Job.sizeAll]
  | cons job jobs ih => rw [List.foldl_cons, ih, work_schedule, Job.sizeAll, Nat.add_assoc]

theorem sizeAll_unfired_markFired {run : Run α} (isRun : runs[number]? = some run) (waits : run.fired = false) :
    Job.sizeAll (unfired (runs.modify number fun run => { run with fired := true })) + run.job.size =
      Job.sizeAll (unfired runs) := by
  induction runs generalizing number with
  | nil => cases isRun
  | cons first runs ih =>
    cases number with
    | zero =>
      cases isRun
      rw [List.modify_zero_cons, unfired_cons, unfired_cons, waits, sizeAll_append, sizeAll_append]
      simp only [if_true, Bool.false_eq_true, if_false, Job.sizeAll]
      omega
    | succ number =>
      rw [List.modify_succ_cons, unfired_cons, unfired_cons, sizeAll_append, sizeAll_append,
        ← ih isRun, Nat.add_assoc]

/-- A timer that fires uses up an action of its job. -/
theorem work_fireAtDue_lt {run : Run α} (isRun : state.runs[number]? = some run)
    (waits : run.isWaiting stubborn = true) : (state.fireAtDue number).work < state.work := by
  have unfired : run.fired = false := by
    simp only [Run.isWaiting, Bool.and_eq_true, Bool.not_eq_true'] at waits
    exact waits.1
  have less : (state.markFired number).work + run.job.size = state.work := by
    exact sizeAll_unfired_markFired isRun unfired
  have size := run.job.size_eq
  rw [fireAtDue, isRun]
  simp only [fire, show (state.moveTo run.due).runs[number]? = some run from isRun]
  split
  · rw [execute, work_schedules]
    show (state.markFired number).work + _ < _
    omega
  · show (state.markFired number).work < _
    omega

/-- What is asked from outside or by a job may happen at any time. -/
def Act.isAsked : Act α → Bool
  | .schedule _ | .cancelPending | .cancel _ => true
  | .moveTo _ | .fire _ => false

/-- Things happen as the loop promises. -/
inductive Kept (stubborn : Bool) : Debouncer α → List (Act α) → Prop where
  | nil {state : Debouncer α} : Kept stubborn state []
  | asked {state : Debouncer α} {act : Act α} {acts : List (Act α)} :
      act.isAsked = true → Kept stubborn (state.act act) acts → Kept stubborn state (act :: acts)
  | passed {state : Debouncer α} {time : Nat} {acts : List (Act α)} :
      firstDue? stubborn time state.runs = none → Kept stubborn (state.moveTo time) acts →
      Kept stubborn state (.moveTo time :: acts)
  | fired {state : Debouncer α} {until_ number : Nat} {run : Run α} {acts : List (Act α)} :
      firstDue? stubborn until_ state.runs = some number → state.runs[number]? = some run →
      Kept stubborn ((state.moveTo run.due).act (.fire number)) acts →
      Kept stubborn state (.moveTo run.due :: .fire number :: acts)

theorem kept_append {front back : List (Act α)} (first : Kept stubborn state front)
    (last : Kept stubborn (front.foldl act state) back) : Kept stubborn state (front ++ back) := by
  induction first with
  | nil => exact last
  | asked isAsked _ ih => exact .asked isAsked (ih last)
  | passed none _ ih => exact .passed none (ih last)
  | fired found isRun _ ih => exact .fired found isRun (ih last)

/-- What every step of the loop keeps holds wherever the loop stands. -/
theorem Kept.holds {holds : Debouncer α → Prop}
    (asked : ∀ {state : Debouncer α} {act : Act α}, act.isAsked = true → holds state → holds (state.act act))
    (passed : ∀ {state : Debouncer α} {time : Nat},
      firstDue? stubborn time state.runs = none → holds state → holds (state.moveTo time))
    (moved : ∀ {state : Debouncer α} {until_ number : Nat} {run : Run α},
      firstDue? stubborn until_ state.runs = some number → state.runs[number]? = some run →
        holds state → holds (state.moveTo run.due))
    (fired : ∀ {state : Debouncer α} {until_ number : Nat} {run : Run α},
      firstDue? stubborn until_ state.runs = some number → state.runs[number]? = some run →
        holds state → holds ((state.moveTo run.due).act (.fire number)))
    {before after : List (Act α)} (kept : Kept stubborn state acts) (split : acts = before ++ after)
    (atFirst : holds state) : holds (before.foldl act state) := by
  induction kept generalizing before with
  | nil =>
    cases before with
    | nil => exact atFirst
    | cons => cases split
  | asked isAsked _ ih =>
    cases before with
    | nil => exact atFirst
    | cons =>
      cases split
      exact ih rfl (asked isAsked atFirst)
  | passed none _ ih =>
    cases before with
    | nil => exact atFirst
    | cons =>
      cases split
      exact ih rfl (passed none atFirst)
  | fired found isRun _ ih =>
    rcases before with _ | ⟨first, _ | ⟨second, before⟩⟩
    · exact atFirst
    · cases split
      exact moved found isRun atFirst
    · cases split
      exact ih rfl (fired found isRun atFirst)

theorem kept_schedules (state : Debouncer α) (jobs : List (Job α)) :
    Kept stubborn state (jobs.map .schedule) := by
  induction jobs generalizing state with
  | nil => exact .nil
  | cons job jobs ih => exact .asked rfl (ih _)

/-- All work is done within the turns of a step, so nothing that is due waits at its end. -/
theorem kept_settling (enough : state.work ≤ fuel) :
    Kept stubborn state (settling stubborn until_ fuel state) := by
  induction fuel generalizing state with
  | zero =>
    -- Without work no timer waits, since each that fires takes some.
    refine .passed (firstDue?_none_of fun isRun waits => ?_) .nil
    have less := work_fireAtDue_lt isRun waits
    omega
  | succ fuel ih =>
    rw [settling]
    cases found : firstDue? stubborn until_ state.runs with
    | none => exact .passed found .nil
    | some number =>
      obtain ⟨run, isRun, waits, -⟩ := firstDue?_eq_some found
      have less := work_fireAtDue_lt isRun waits
      refine kept_append ?_ ?_
      · rw [firing, isRun]
        exact .fired found isRun (kept_schedules _ _)
      · rw [foldl_firing]
        exact ih (by omega)

theorem kept_acts (state : Debouncer α) (step : Step α) : Kept stubborn state (step.acts stubborn state) := by
  cases step with
  | schedule => exact .asked rfl .nil
  | cancelPending => exact .asked rfl .nil
  | cancel => exact .asked rfl .nil
  | advance => exact kept_settling (Nat.le_refl _)

theorem kept_history (state : Debouncer α) (steps : List (Step α)) :
    Kept stubborn state (state.history stubborn steps) := by
  induction steps generalizing state with
  | nil => exact .nil
  | cons step steps ih =>
    refine kept_append (kept_acts state step) ?_
    rw [foldl_acts]
    exact ih _

end Flowchart.Debouncer
