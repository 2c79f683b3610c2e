import Flowchart.Proofs.Debounce.Exact

/-!
A debouncer whose jobs schedule nothing more: either the timer of one action waits, or none does. When time passes, the
timer fires at its time if the clock comes that far, and nothing else happens.
-/
namespace Flowchart.Debouncer

variable {α : Type} {state : Debouncer α} {number due time : Nat} {action : α}

/-- The timer of an action waits, which is then the only one. -/
structure Awaits (state : Debouncer α) (number due : Nat) (action : α) : Prop where
  orderly : Orderly state
  waits : ∃ run, state.runs[number]? = some run ∧ run.isWaiting false = true ∧ run.due = due ∧ run.job = .once action

/-- No timer waits. -/
structure Rests (state : Debouncer α) : Prop where
  orderly : Orderly state
  settled : ∀ {number : Nat} {run : Run α}, state.runs[number]? = some run → run.isWaiting false = false

theorem rests_start (delay : Nat) : Rests { delay : Debouncer α } where
  orderly := orderly_start delay
  settled isRun := by cases isRun

theorem awaits_schedule (orderly : Orderly state) (action : α) :
    Awaits (state.schedule (.once action)) state.runs.length (state.now + state.delay) action where
  orderly := orderly.schedule (.once action)
  waits := ⟨_, runs_schedule_new state (.once action), rfl, rfl, rfl⟩

theorem Rests.isSettled (rests : Rests state) (known : number < state.runs.length) : IsSettled state number :=
  ⟨_, List.getElem?_eq_getElem known, rests.settled (List.getElem?_eq_getElem known)⟩

theorem Awaits.lt_length (awaits : Awaits state number due action) : number < state.runs.length := by
  obtain ⟨run, isRun, -⟩ := awaits.waits
  exact (List.getElem?_eq_some_iff.1 isRun).1

theorem Awaits.now_le (awaits : Awaits state number due action) : state.now ≤ due := by
  obtain ⟨run, isRun, waits, isDue, -⟩ := awaits.waits
  exact isDue ▸ (awaits.orderly.alone isRun waits).2.2

theorem Awaits.due_eq (awaits : Awaits state number due action) {other : Nat} {run : Run α}
    (isRun : state.runs[other]? = some run) (waits : run.isWaiting false = true) : run.due = due := by
  obtain ⟨first, isFirst, firstWaits, isDue, -⟩ := awaits.waits
  obtain rfl := awaits.orderly.number_eq isFirst firstWaits isRun waits
  rw [Option.some.inj (isRun.symm.trans isFirst), isDue]

theorem Awaits.firstDue?_early (awaits : Awaits state number due action) (early : time < due) :
    firstDue? false time state.runs = none :=
  firstDue?_none_of fun isRun waits => awaits.due_eq isRun waits ▸ early

theorem Awaits.firstDue?_late (awaits : Awaits state number due action) (late : due ≤ time) :
    firstDue? false time state.runs = some number := by
  obtain ⟨run, isRun, waits, isDue, -⟩ := awaits.waits
  exact awaits.orderly.firstDue?_eq isRun waits (isDue ▸ late)

theorem Rests.firstDue?_eq (rests : Rests state) (time : Nat) : firstDue? false time state.runs = none := by
  refine firstDue?_none_of fun isRun waits => ?_
  rw [rests.settled isRun] at waits
  cases waits

theorem Rests.not_awaits (rests : Rests state) : ¬Awaits state number due action := by
  intro awaits
  obtain ⟨run, isRun, waits, -⟩ := awaits.waits
  rw [rests.settled isRun] at waits
  cases waits

/-- All that was scheduled before is settled. -/
theorem Awaits.isSettled (awaits : Awaits state number due action) {other : Nat} (earlier : other < number) :
    IsSettled state other := by
  obtain ⟨run, isRun, waits, -⟩ := awaits.waits
  have isOther := List.getElem?_eq_getElem (Nat.lt_trans earlier awaits.lt_length)
  refine ⟨_, isOther, Bool.eq_false_iff.2 fun otherWaits => ?_⟩
  exact absurd (awaits.orderly.number_eq isOther otherWaits isRun waits) (Nat.ne_of_lt earlier)

section cancel

theorem Awaits.cancel (awaits : Awaits state number due action) {cancelled : Nat} (other : cancelled ≠ number) :
    Awaits (state.cancel cancelled) number due action := by
  obtain ⟨run, isRun, waits⟩ := awaits.waits
  refine ⟨awaits.orderly.cancel cancelled, run, ?_, waits⟩
  rw [runs_cancel, isRun, Option.map_some, if_neg other]

theorem Rests.cancel (rests : Rests state) (cancelled : Nat) : Rests (state.cancel cancelled) := by
  refine ⟨rests.orderly.cancel cancelled, fun isRun => ?_⟩
  rw [runs_cancel, Option.map_eq_some_iff] at isRun
  obtain ⟨old, wasRun, rfl⟩ := isRun
  split
  · exact Run.not_isWaiting_of_cancelled rfl
  · exact rests.settled wasRun

theorem Awaits.cancel_self (awaits : Awaits state number due action) : Rests (state.cancel number) := by
  obtain ⟨run, isRun, waits, -⟩ := awaits.waits
  refine ⟨awaits.orderly.cancel number, fun {other} _ isOther => ?_⟩
  rw [runs_cancel, Option.map_eq_some_iff] at isOther
  obtain ⟨old, wasRun, rfl⟩ := isOther
  split
  · exact Run.not_isWaiting_of_cancelled rfl
  · rename_i different
    exact Bool.eq_false_iff.2 fun oldWaits => different (awaits.orderly.number_eq isRun waits wasRun oldWaits)

theorem rests_cancelPending (orderly : Orderly state) : Rests state.cancelPending :=
  ⟨orderly.cancelPending, orderly.settled_cancelPending⟩

end cancel

section advance

theorem Awaits.moveTo (awaits : Awaits state number due action) (early : time < due) :
    Awaits (state.moveTo time) number due action :=
  ⟨awaits.orderly.passed (awaits.firstDue?_early early), awaits.waits⟩

theorem Rests.moveTo (rests : Rests state) (time : Nat) : Rests (state.moveTo time) :=
  ⟨rests.orderly.passed (rests.firstDue?_eq time), rests.settled⟩

/-- Behind the only timer nothing waits. -/
theorem Awaits.rests_fire (awaits : Awaits state number due action) :
    Rests ((state.moveTo due).act (.fire number)) := by
  obtain ⟨run, isRun, waits, rfl, -⟩ := awaits.waits
  have inTime := awaits.orderly.moveToDue isRun waits
  exact ⟨inTime.fire isRun waits, inTime.settled_fire isRun waits⟩

theorem Rests.acts_advance (rests : Rests state) (time : Nat) :
    (Step.advance time).acts false state = [.moveTo (state.now + time)] :=
  settling_of_none (rests.firstDue?_eq _) _

theorem Awaits.acts_early (awaits : Awaits state number due action) (early : state.now + time < due) :
    (Step.advance time).acts false state = [.moveTo (state.now + time)] :=
  settling_of_none (awaits.firstDue?_early early) _

theorem Awaits.acts_late (awaits : Awaits state number due action) (late : due ≤ state.now + time) :
    (Step.advance time).acts false state = [.moveTo due, .fire number, .moveTo (state.now + time)] := by
  have found := awaits.firstDue?_late late
  obtain ⟨run, isRun, waits, rfl, isJob⟩ := awaits.waits
  have fires : state.firing number = [.moveTo run.due, .fire number] := by
    rw [firing_of_current isRun (awaits.orderly.generation_eq isRun waits), isJob]
    rfl
  have lands : state.fireAtDue number = (state.moveTo run.due).act (.fire number) := by
    rw [← foldl_firing, fires]
    rfl
  -- The work of the timer is what gives the loop its turn.
  have less := work_fireAtDue_lt isRun waits
  obtain ⟨fuel, isFuel⟩ := Nat.exists_eq_add_one.2 (Nat.zero_lt_of_lt less)
  have rests : Rests (state.fireAtDue number) := lands ▸ awaits.rests_fire
  rw [Step.acts, isFuel, settling, found]
  simp only [fires, settling_of_none (rests.firstDue?_eq _)]
  rfl

theorem executions_moveTo (state : Debouncer α) (time : Nat) : executions state [.moveTo time] = [] := rfl

theorem Awaits.executions_late (awaits : Awaits state number due action) (later : Nat) :
    executions state [.moveTo due, .fire number, .moveTo later] = [⟨number, due, action⟩] := by
  have found := awaits.firstDue?_late (Nat.le_refl due)
  obtain ⟨run, isRun, waits, rfl, isJob⟩ := awaits.waits
  rw [executions_fired awaits.orderly found isRun, executions_moveTo, isJob]
  rfl

theorem now_act_fire (state : Debouncer α) (number : Nat) : (state.act (.fire number)).now = state.now := by
  rw [act]
  split <;> rfl

theorem Rests.advance (rests : Rests state) (time : Nat) :
    Rests (state.advance false time) ∧ (state.advance false time).now = state.now + time := by
  have acts := foldl_acts false state (.advance time)
  rw [rests.acts_advance] at acts
  rw [show state.advance false time = state.moveTo (state.now + time) from acts.symm]
  exact ⟨rests.moveTo _, Nat.max_eq_right (Nat.le_add_right ..)⟩

theorem Awaits.advance_early (awaits : Awaits state number due action) (early : state.now + time < due) :
    Awaits (state.advance false time) number due action ∧ (state.advance false time).now = state.now + time := by
  have acts := foldl_acts false state (.advance time)
  rw [awaits.acts_early early] at acts
  rw [show state.advance false time = state.moveTo (state.now + time) from acts.symm]
  exact ⟨awaits.moveTo early, Nat.max_eq_right (Nat.le_add_right ..)⟩

theorem Awaits.advance_late (awaits : Awaits state number due action) (late : due ≤ state.now + time) :
    Rests (state.advance false time) ∧ (state.advance false time).now = state.now + time := by
  have acts := foldl_acts false state (.advance time)
  rw [awaits.acts_late late] at acts
  rw [show state.advance false time =
    ((state.moveTo due).act (.fire number)).moveTo (state.now + time) from acts.symm]
  refine ⟨awaits.rests_fire.moveTo _, ?_⟩
  show max ((state.moveTo due).act (.fire number)).now (state.now + time) = _
  rw [now_act_fire]
  exact Nat.max_eq_right (Nat.max_le.2 ⟨Nat.le_add_right .., late⟩)

/-- The calls of what is executed while time passes. -/
theorem calls_advance (state : Debouncer α) (time : Nat) :
    (state.advance false time).calls = state.calls ++
      (executions state ((Step.advance time).acts false state)).map fun execution =>
        (execution.time, execution.action) := by
  rw [← calls_foldl, foldl_acts]
  rfl

theorem Rests.calls_advance (rests : Rests state) (time : Nat) : (state.advance false time).calls = state.calls := by
  rw [Debouncer.calls_advance, rests.acts_advance]
  exact List.append_nil _

theorem Awaits.calls_advance_early (awaits : Awaits state number due action) (early : state.now + time < due) :
    (state.advance false time).calls = state.calls := by
  rw [Debouncer.calls_advance, awaits.acts_early early]
  exact List.append_nil _

theorem Awaits.calls_advance_late (awaits : Awaits state number due action) (late : due ≤ state.now + time) :
    (state.advance false time).calls = state.calls ++ [(due, action)] := by
  rw [Debouncer.calls_advance, awaits.acts_late late, awaits.executions_late]
  rfl

end advance

end Flowchart.Debouncer
