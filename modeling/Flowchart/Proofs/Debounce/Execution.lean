import Flowchart.Proofs.Debounce.Pending

/-!
The executions of runs, of which a debouncer records the calls, and the fate of a run that waits: it is executed
if and only if the clock reaches its time undisturbed, and then once and at that time.
-/
namespace Flowchart.Debouncer

variable {α : Type} {state : Debouncer α} {act : Act α} {acts : List (Act α)} {number due : Nat} {run : Run α}

/-- A run is executed: its job is done at some time. -/
structure Execution (α : Type) where
  number : Nat
  time : Nat
  action : α
  deriving DecidableEq

def executed? (state : Debouncer α) : Act α → Option (Execution α)
  | .fire number => (state.startable? number).map fun job => ⟨number, state.now, job.action⟩
  | _ => none

/-- All runs that are executed while things happen. -/
def executions : Debouncer α → List (Act α) → List (Execution α)
  | _, [] => []
  | state, act :: acts => (state.executed? act).toList ++ executions (state.act act) acts

/-- What keeps a waiting run from its execution. -/
def Disturbs (number : Nat) : Act α → Prop
  | .schedule _ | .cancelPending => True
  | .cancel cancelled => cancelled = number
  | .moveTo _ | .fire _ => False

/-- The clock reaches the time at which a run is due, with no disturbance of the run before. -/
def Reached (number due : Nat) (acts : List (Act α)) : Prop :=
  ∃ quiet time rest, acts = quiet ++ .moveTo time :: rest ∧ due ≤ time ∧ ∀ act ∈ quiet, ¬Disturbs number act

theorem not_reached_nil : ¬Reached number due ([] : List (Act α)) := by
  rintro ⟨quiet, time, rest, split, -, -⟩
  cases quiet <;> cases split

theorem reached_cons : Reached number due (act :: acts) ↔
    (∃ time, act = .moveTo time ∧ due ≤ time) ∨ ¬Disturbs number act ∧ Reached number due acts := by
  constructor
  · rintro ⟨_ | ⟨first, quiet⟩, time, rest, split, isDue, undisturbed⟩
    · cases split
      exact .inl ⟨time, rfl, isDue⟩
    · cases split
      have ⟨here, later⟩ := List.forall_mem_cons.1 undisturbed
      exact .inr ⟨here, quiet, time, rest, rfl, isDue, later⟩
  · rintro (⟨time, rfl, isDue⟩ | ⟨here, quiet, time, rest, rfl, isDue, later⟩)
    · exact ⟨[], time, acts, rfl, isDue, fun _ mem => absurd mem List.not_mem_nil⟩
    · exact ⟨act :: quiet, time, rest, rfl, isDue, List.forall_mem_cons.2 ⟨here, later⟩⟩

/-- What neither reaches the time nor disturbs may be left out. -/
theorem reached_cons_quiet (early : ∀ time, act = .moveTo time → time < due) (undisturbed : ¬Disturbs number act) :
    Reached number due (act :: acts) ↔ Reached number due acts := by
  rw [reached_cons]
  constructor
  · rintro (⟨time, isTime, isDue⟩ | ⟨-, reached⟩)
    · exact absurd isDue (Nat.not_le_of_lt (early time isTime))
    · exact reached
  · intro reached
    exact .inr ⟨undisturbed, reached⟩

theorem calls_schedule (state : Debouncer α) (job : Job α) : (state.schedule job).calls = state.calls := by
  rw [schedule, giveUp, cancelPending]
  split <;> rfl

theorem calls_act (state : Debouncer α) (act : Act α) :
    (state.act act).calls =
      state.calls ++ (state.executed? act).toList.map fun execution => (execution.time, execution.action) := by
  cases act with
  | schedule job => exact (calls_schedule state job).trans (List.append_nil _).symm
  | cancelPending =>
    refine Eq.trans ?_ (List.append_nil _).symm
    rw [Debouncer.act, cancelPending]
    split <;> rfl
  | cancel => exact (List.append_nil _).symm
  | moveTo => exact (List.append_nil _).symm
  | fire number =>
    rw [Debouncer.act, executed?]
    cases state.startable? number with
    | none => exact (List.append_nil _).symm
    | some job => rfl

/-- The record of the calls is the list of the executions. -/
theorem calls_foldl (state : Debouncer α) (acts : List (Act α)) :
    (acts.foldl Debouncer.act state).calls =
      state.calls ++ (executions state acts).map fun execution => (execution.time, execution.action) := by
  induction acts generalizing state with
  | nil => exact (List.append_nil _).symm
  | cons act acts ih =>
    rw [List.foldl_cons, ih, calls_act, executions, List.map_append, List.append_assoc]

theorem executions_append (state : Debouncer α) (front back : List (Act α)) :
    executions state (front ++ back) =
      executions state front ++ executions (front.foldl Debouncer.act state) back := by
  induction front generalizing state with
  | nil => rfl
  | cons act front ih => rw [List.cons_append, executions, executions, ih, List.append_assoc, List.foldl_cons]

theorem length_act (state : Debouncer α) (act : Act α) :
    (state.act act).runs.length = state.runs.length + if act matches .schedule _ then 1 else 0 := by
  cases act with
  | schedule job => exact length_schedule state job
  | cancelPending => exact length_cancelPending state
  | cancel => exact List.length_modify ..
  | moveTo => rfl
  | fire number =>
    rw [runs_fire]
    exact List.length_modify ..

theorem number_lt_of_executed? {execution : Execution α} (executed : state.executed? act = some execution) :
    execution.number < state.runs.length := by
  cases act with
  | fire number =>
    obtain ⟨job, starts, rfl⟩ := Option.map_eq_some_iff.1 executed
    obtain ⟨run, isRun, -⟩ := Option.bind_eq_some_iff.1 starts
    exact (List.getElem?_eq_some_iff.1 isRun).1
  | _ => cases executed

/-- What is executed was scheduled, before or meanwhile. -/
theorem scheduled_of_mem {execution : Execution α} (mem : execution ∈ executions state acts) :
    execution.number < state.runs.length ∨ ∃ before job after, acts = before ++ .schedule job :: after ∧
      (before.foldl Debouncer.act state).runs.length = execution.number := by
  induction acts generalizing state with
  | nil => cases mem
  | cons act acts ih =>
    rcases List.mem_append.1 mem with here | later
    · exact .inl (number_lt_of_executed? (Option.mem_toList.1 here))
    · rcases ih later with known | ⟨before, job, after, rfl, isNumber⟩
      · rw [length_act] at known
        by_cases old : execution.number < state.runs.length
        · exact .inl old
        · cases act with
          | schedule job =>
            replace known : execution.number < state.runs.length + 1 := known
            exact .inr ⟨[], job, acts, rfl, Nat.le_antisymm (Nat.le_of_not_lt old) (Nat.le_of_lt_succ known)⟩
          | _ => exact absurd known old
      · exact .inr ⟨act :: before, job, after, rfl, isNumber⟩

theorem executed?_of_asked (isAsked : act.isAsked = true) : state.executed? act = none := by
  cases act with
  | fire => cases isAsked
  | _ => rfl

theorem executions_asked (isAsked : act.isAsked = true) :
    executions state (act :: acts) = executions (state.act act) acts := by
  rw [executions, executed?_of_asked isAsked]
  rfl

theorem startable?_of_current (isRun : state.runs[number]? = some run) (isCurrent : run.generation = state.generation) :
    state.startable? number = some run.job := by
  rw [startable?, isRun]
  exact if_pos isCurrent

theorem Orderly.generation_eq (orderly : Orderly state) (isRun : state.runs[number]? = some run)
    (waits : run.isWaiting false = true) : run.generation = state.generation := by
  rw [orderly.numbered isRun, (orderly.alone isRun waits).2.1, orderly.current]

theorem firing_of_current (isRun : state.runs[number]? = some run) (isCurrent : run.generation = state.generation) :
    state.firing number = .moveTo run.due :: .fire number :: run.job.next.map .schedule := by
  rw [firing, isRun, startable?_of_current isRun isCurrent]
  rfl

/-- A timer that fires in time starts the job of its run, at the time of the run. -/
theorem executions_current (isRun : state.runs[number]? = some run) (isCurrent : run.generation = state.generation)
    (inTime : state.now ≤ run.due) : executions state (.moveTo run.due :: .fire number :: acts) =
      ⟨number, run.due, run.job.action⟩ :: executions ((state.moveTo run.due).act (.fire number)) acts := by
  have starts : (state.moveTo run.due).startable? number = some run.job := startable?_of_current isRun isCurrent
  have isNow : (state.moveTo run.due).now = run.due := Nat.max_eq_right inTime
  have executed : (state.moveTo run.due).executed? (.fire number) = some ⟨number, run.due, run.job.action⟩ := by
    rw [executed?, starts, isNow]
    rfl
  show ((state.moveTo run.due).executed? (.fire number)).toList ++ _ = _
  rw [executed]
  rfl

/-- The timer that is next fires in time. -/
theorem executions_fired {until_ : Nat} (orderly : Orderly state)
    (found : firstDue? false until_ state.runs = some number) (isRun : state.runs[number]? = some run) :
    executions state (.moveTo run.due :: .fire number :: acts) =
      ⟨number, run.due, run.job.action⟩ :: executions ((state.moveTo run.due).act (.fire number)) acts := by
  have waits := isWaiting_of_firstDue? found isRun
  exact executions_current isRun (orderly.generation_eq isRun waits) (orderly.alone isRun waits).2.2

/-- A settled run is not executed any more. -/
theorem not_executed_of_settled (orderly : Orderly state) (kept : Kept false state acts)
    (settled : IsSettled state number) :
    (executions state acts).filter (·.number = number) = [] := by
  induction kept with
  | nil => rfl
  | asked isAsked _ ih =>
    rw [executions_asked isAsked]
    exact ih (orderly.asked isAsked) (settled.act _)
  | passed none _ ih => exact ih (orderly.passed none) settled
  | @fired state until_ fired run acts found isRun _ ih =>
    have other : fired ≠ number := by
      rintro rfl
      obtain ⟨old, wasRun, isSettled⟩ := settled
      rw [Option.some.inj (wasRun.symm.trans isRun), isWaiting_of_firstDue? found isRun] at isSettled
      cases isSettled
    rw [executions_fired orderly found isRun, List.filter_cons_of_neg (by simpa using other)]
    exact ih (orderly.fired found isRun) (settled.act (.moveTo run.due) |>.act _)

theorem settled_of_disturbs (orderly : Orderly state) (known : number < state.runs.length)
    (disturbs : Disturbs number act) : IsSettled (state.act act) number := by
  cases act with
  | schedule job => exact (orderly.isSettled_cancelPending known).schedule job
  | cancelPending => exact orderly.isSettled_cancelPending known
  | cancel cancelled =>
    obtain rfl : cancelled = number := disturbs
    refine ⟨{ state.runs[cancelled] with cancelled := true }, ?_, Run.not_isWaiting_of_cancelled rfl⟩
    rw [Debouncer.act, runs_cancel, List.getElem?_eq_getElem known, Option.map_some, if_pos rfl]
  | moveTo => exact disturbs.elim
  | fire => exact disturbs.elim

theorem run_of_not_disturbs (isRun : state.runs[number]? = some run) (isAsked : act.isAsked = true)
    (undisturbed : ¬Disturbs number act) : (state.act act).runs[number]? = some run := by
  cases act with
  | schedule => exact absurd trivial undisturbed
  | cancelPending => exact absurd trivial undisturbed
  | cancel cancelled =>
    have other : cancelled ≠ number := undisturbed
    rw [Debouncer.act, runs_cancel, isRun, Option.map_some, if_neg other]
  | moveTo => cases isAsked
  | fire => cases isAsked

/-- A run is executed once and in time, if it may be, and else not at all. -/
structure IsExact (done : List (Execution α)) (number due : Nat) (action : α) (acts : List (Act α)) : Prop where
  iff : (∃ execution ∈ done, execution.number = number) ↔ Reached number due acts
  once : Reached number due acts → done.filter (·.number = number) = [⟨number, due, action⟩]

theorem isExact_of_reached {done : List (Execution α)} {action : α} (reached : Reached number due acts)
    (once : done.filter (·.number = number) = [⟨number, due, action⟩]) : IsExact done number due action acts := by
  refine ⟨iff_of_true ?_ reached, fun _ => once⟩
  have mem : ⟨number, due, action⟩ ∈ done.filter (·.number = number) := once ▸ List.mem_singleton_self _
  exact ⟨_, (List.mem_filter.1 mem).1, rfl⟩

theorem isExact_of_not_reached {done : List (Execution α)} {action : α} (out : ¬Reached number due acts)
    (none : done.filter (·.number = number) = []) : IsExact done number due action acts := by
  refine ⟨iff_of_false ?_ out, fun reached => absurd reached out⟩
  rintro ⟨execution, mem, isNumber⟩
  exact List.filter_eq_nil_iff.1 none execution mem (decide_eq_true isNumber)

theorem IsExact.congr {done : List (Execution α)} {action : α} {more : List (Act α)}
    (isExact : IsExact done number due action acts) (same : Reached number due more ↔ Reached number due acts) :
    IsExact done number due action more :=
  ⟨isExact.iff.trans same.symm, fun reached => isExact.once (same.1 reached)⟩

/-- The fate of a run that waits: what happens first settles it, or leaves it to what happens next. -/
theorem isExact_of_waiting (orderly : Orderly state) (kept : Kept false state acts)
    (isRun : state.runs[number]? = some run) (waits : run.isWaiting false = true) :
    IsExact (executions state acts) number run.due run.job.action acts := by
  induction kept with
  | nil => exact isExact_of_not_reached not_reached_nil rfl
  | @asked state act acts isAsked kept ih =>
    rw [executions_asked isAsked]
    by_cases disturbs : Disturbs number act
    · refine isExact_of_not_reached (fun reached => ?_) ?_
      · rcases reached_cons.1 reached with ⟨time, rfl, -⟩ | ⟨undisturbed, -⟩
        · cases isAsked
        · exact undisturbed disturbs
      · have known := (List.getElem?_eq_some_iff.1 isRun).1
        exact not_executed_of_settled (orderly.asked isAsked) kept (settled_of_disturbs orderly known disturbs)
    · have next := ih (orderly.asked isAsked) (run_of_not_disturbs isRun isAsked disturbs)
      refine next.congr (reached_cons_quiet ?_ disturbs)
      rintro time rfl
      cases isAsked
  | @passed state time acts none kept ih =>
    have next := ih (orderly.passed none) isRun
    refine next.congr (reached_cons_quiet ?_ id)
    rintro _ ⟨⟩
    exact firstDue?_eq_none none isRun waits
  | @fired state until_ fired next acts found isNext kept ih =>
    -- Only this run waits, so it is the one whose timer fires.
    obtain rfl : fired = number :=
      orderly.number_eq isNext (isWaiting_of_firstDue? found isNext) isRun waits
    obtain rfl : run = next := Option.some.inj (isRun.symm.trans isNext)
    have settled : IsSettled ((state.moveTo run.due).act (.fire fired)) fired := by
      refine ⟨{ run with fired := true }, ?_, Run.not_isWaiting_of_fired rfl⟩
      rw [runs_fire, runs_markFired, show (state.moveTo run.due).runs = state.runs from rfl, isRun,
        Option.map_some, if_pos rfl]
    refine isExact_of_reached (reached_cons.2 (.inl ⟨run.due, rfl, Nat.le_refl _⟩)) ?_
    rw [executions_fired orderly found isRun, List.filter_cons_of_pos (by simp),
      not_executed_of_settled (orderly.fired found isRun) kept settled]

end Flowchart.Debouncer
