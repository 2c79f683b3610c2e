import Flowchart.Proofs.Debounce.Loop

/-!
At most one timer waits in a debouncer, the one of the run that was scheduled last. A run whose timer fired or
was cancelled is settled and stays so.
-/
namespace Flowchart

variable {α : Type}

theorem Run.not_isWaiting_of_cancelled {run : Run α} (cancelled : run.cancelled = true) :
    run.isWaiting false = false := by
  simp [isWaiting, cancelled]

theorem Run.not_isWaiting_of_fired {run : Run α} (fired : run.fired = true) : run.isWaiting false = false := by
  simp [isWaiting, fired]

namespace Debouncer

variable {state : Debouncer α} {number : Nat} {run : Run α}

/-- Runs have the generations in which they were scheduled, and only the timer of the last one may still fire. -/
structure Orderly (state : Debouncer α) : Prop where
  current : state.generation = state.runs.length
  numbered : ∀ {number : Nat} {run : Run α}, state.runs[number]? = some run → run.generation = number + 1
  alone : ∀ {number : Nat} {run : Run α}, state.runs[number]? = some run → run.isWaiting false = true →
    state.pending = some number ∧ number + 1 = state.runs.length ∧ state.now ≤ run.due

/-- Only the timer of the pending run waits, and it is not overdue. -/
structure Lone (state : Debouncer α) : Prop where
  alone : ∀ {number : Nat} {run : Run α}, state.runs[number]? = some run → run.isWaiting false = true →
    state.pending = some number ∧ state.now ≤ run.due

/-- The timer of the run has fired or was cancelled. -/
def IsSettled (state : Debouncer α) (number : Nat) : Prop :=
  ∃ run, state.runs[number]? = some run ∧ run.isWaiting false = false

theorem orderly_start (delay : Nat) : Orderly { delay : Debouncer α } where
  current := rfl
  numbered isRun := by cases isRun
  alone isRun := by cases isRun

theorem lone_start (delay : Nat) : Lone { delay : Debouncer α } where
  alone isRun := by cases isRun

theorem runs_cancel (state : Debouncer α) (cancelled number : Nat) :
    (state.cancel cancelled).runs[number]? =
      state.runs[number]?.map fun run => if cancelled = number then { run with cancelled := true } else run :=
  List.getElem?_modify ..

theorem runs_markFired (state : Debouncer α) (fired number : Nat) :
    (state.markFired fired).runs[number]? =
      state.runs[number]?.map fun run => if fired = number then { run with fired := true } else run :=
  List.getElem?_modify ..

theorem runs_fire (state : Debouncer α) (number : Nat) :
    (state.act (.fire number)).runs = (state.markFired number).runs := by
  rw [act]
  split <;> rfl

theorem generation_fire (state : Debouncer α) (number : Nat) :
    (state.act (.fire number)).generation = state.generation := by
  rw [act]
  split <;> rfl

theorem length_cancelPending (state : Debouncer α) : state.cancelPending.runs.length = state.runs.length := by
  rw [cancelPending]
  split
  · rfl
  · exact List.length_modify ..

theorem generation_cancelPending (state : Debouncer α) : state.cancelPending.generation = state.generation := by
  rw [cancelPending]
  split <;> rfl

theorem now_cancelPending (state : Debouncer α) : state.cancelPending.now = state.now := by
  rw [cancelPending]
  split <;> rfl

theorem delay_cancelPending (state : Debouncer α) : state.cancelPending.delay = state.delay := by
  rw [cancelPending]
  split <;> rfl

theorem pending_cancelPending (state : Debouncer α) : state.cancelPending.pending = none := by
  cases isPending : state.pending with
  | none => rw [cancelPending, isPending, isPending]
  | some _ => rw [cancelPending, isPending]

theorem runs_schedule (state : Debouncer α) (job : Job α) :
    (state.schedule job).runs =
      state.cancelPending.runs ++ [⟨state.generation + 1, state.now + state.delay, job, false, false⟩] := by
  rw [schedule, giveUp]
  simp only [generation_cancelPending, now_cancelPending, delay_cancelPending]

theorem length_schedule (state : Debouncer α) (job : Job α) :
    (state.schedule job).runs.length = state.runs.length + 1 := by
  rw [runs_schedule, List.length_append, length_cancelPending]
  rfl

/-- The run that a schedule adds. -/
theorem runs_schedule_new (state : Debouncer α) (job : Job α) :
    (state.schedule job).runs[state.runs.length]? =
      some ⟨state.generation + 1, state.now + state.delay, job, false, false⟩ := by
  rw [runs_schedule, ← length_cancelPending, List.getElem?_concat_length]

theorem Lone.number_eq (lone : Lone state) (isRun : state.runs[number]? = some run)
    (waits : run.isWaiting false = true) {other : Nat} {otherRun : Run α}
    (isOther : state.runs[other]? = some otherRun) (otherWaits : otherRun.isWaiting false = true) :
    number = other :=
  Option.some.inj ((lone.alone isRun waits).1.symm.trans (lone.alone isOther otherWaits).1)

/-- A timer that waits is the next to fire once it is due. -/
theorem Lone.firstDue?_eq (lone : Lone state) (isRun : state.runs[number]? = some run)
    (waits : run.isWaiting false = true) {time : Nat} (isDue : run.due ≤ time) :
    firstDue? false time state.runs = some number := by
  cases found : firstDue? false time state.runs with
  | none => exact absurd isDue (Nat.not_le_of_lt (firstDue?_eq_none found isRun waits))
  | some other =>
    obtain ⟨next, isNext, nextWaits, -⟩ := firstDue?_eq_some found
    rw [lone.number_eq isNext nextWaits isRun waits]

/-- No timer waits where no run is pending. -/
theorem Lone.settled (lone : Lone state) (none : state.pending = none) (isRun : state.runs[number]? = some run) :
    run.isWaiting false = false := by
  refine Bool.eq_false_iff.2 fun waits => ?_
  have isPending := (lone.alone isRun waits).1
  rw [none] at isPending
  cases isPending

/-- A run that comes to its end leaves the other timers as they are. -/
theorem Lone.settle (lone : Lone state) {later : Debouncer α} {change : Run α → Run α}
    (changed : later.runs = state.runs.modify number change)
    (settles : ∀ run, (change run).isWaiting false = false) (sameNow : later.now = state.now)
    (isPending : later.pending = state.pending ∨ state.pending = some number) : Lone later := by
  refine ⟨fun {other} {run} isRun waits => ?_⟩
  rw [changed, List.getElem?_modify] at isRun
  obtain ⟨old, wasRun, rfl⟩ := Option.map_eq_some_iff.1 isRun
  by_cases same : number = other
  · rw [if_pos same, settles] at waits
    cases waits
  · rw [if_neg same] at waits ⊢
    obtain ⟨wasPending, inTime⟩ := lone.alone wasRun waits
    refine ⟨?_, sameNow ▸ inTime⟩
    rcases isPending with kept | isThis
    · exact kept.trans wasPending
    · exact absurd (Option.some.inj (isThis.symm.trans wasPending)) same

theorem Lone.cancel (lone : Lone state) (cancelled : Nat) : Lone (state.cancel cancelled) :=
  lone.settle rfl (fun _ => Run.not_isWaiting_of_cancelled rfl) rfl (.inl rfl)

theorem Lone.cancelPending (lone : Lone state) : Lone state.cancelPending := by
  cases isPending : state.pending with
  | none =>
    rw [Debouncer.cancelPending, isPending]
    exact lone
  | some number =>
    rw [Debouncer.cancelPending, isPending]
    exact lone.settle rfl (fun _ => Run.not_isWaiting_of_cancelled rfl) rfl (.inr isPending)

/-- An earlier run is settled by the end of the pending one, or was. -/
theorem Lone.settled_cancelPending (lone : Lone state) (isRun : state.cancelPending.runs[number]? = some run) :
    run.isWaiting false = false :=
  lone.cancelPending.settled (pending_cancelPending state) isRun

theorem Lone.schedule (lone : Lone state) (job : Job α) : Lone (state.schedule job) := by
  refine ⟨fun {number} {run} isRun waits => ?_⟩
  rw [runs_schedule, List.getElem?_append, length_cancelPending] at isRun
  split at isRun
  · rw [lone.settled_cancelPending isRun] at waits
    cases waits
  · rw [List.getElem?_singleton] at isRun
    split at isRun
    · obtain rfl := Option.some.inj isRun
      obtain rfl : number = state.runs.length := by omega
      refine ⟨congrArg some (length_cancelPending state), ?_⟩
      exact Nat.le_trans (Nat.le_of_eq (now_cancelPending state)) (Nat.le_add_right ..)
    · cases isRun

theorem Lone.moveTo (lone : Lone state) {time : Nat}
    (inTime : ∀ {number : Nat} {run : Run α},
      state.runs[number]? = some run → run.isWaiting false = true → time ≤ run.due) :
    Lone (state.moveTo time) where
  alone isRun waits :=
    let ⟨isPending, notOver⟩ := lone.alone isRun waits
    ⟨isPending, Nat.max_le.2 ⟨notOver, inTime isRun waits⟩⟩

theorem Lone.fire (lone : Lone state) (isRun : state.runs[number]? = some run) (waits : run.isWaiting false = true) :
    Lone (state.act (.fire number)) := by
  refine lone.settle (runs_fire state number) (fun _ => Run.not_isWaiting_of_fired rfl) ?_
    (.inr (lone.alone isRun waits).1)
  rw [act]
  split <;> rfl

theorem Lone.asked (lone : Lone state) {act : Act α} (isAsked : act.isAsked = true) : Lone (state.act act) := by
  cases act with
  | schedule job => exact lone.schedule job
  | cancelPending => exact lone.cancelPending
  | cancel number => exact lone.cancel number
  | moveTo => cases isAsked
  | fire => cases isAsked

theorem Lone.passed (lone : Lone state) {time : Nat} (none : firstDue? false time state.runs = none) :
    Lone (state.moveTo time) :=
  lone.moveTo fun isRun waits => Nat.le_of_lt (firstDue?_eq_none none isRun waits)

/-- No other timer waits that the clock could pass on its way to a timer that does. -/
theorem Lone.due_le (lone : Lone state) (isRun : state.runs[number]? = some run) (waits : run.isWaiting false = true)
    {other : Nat} {otherRun : Run α} (isOther : state.runs[other]? = some otherRun)
    (otherWaits : otherRun.isWaiting false = true) : run.due ≤ otherRun.due := by
  obtain rfl := lone.number_eq isRun waits isOther otherWaits
  exact Nat.le_of_eq (congrArg Run.due (Option.some.inj (isRun.symm.trans isOther)))

theorem Lone.moveToDue (lone : Lone state) (isRun : state.runs[number]? = some run)
    (waits : run.isWaiting false = true) : Lone (state.moveTo run.due) :=
  lone.moveTo (lone.due_le isRun waits)

theorem Orderly.lone (orderly : Orderly state) : Lone state where
  alone isRun waits :=
    let ⟨isPending, _, inTime⟩ := orderly.alone isRun waits
    ⟨isPending, inTime⟩

theorem Orderly.number_eq (orderly : Orderly state) (isRun : state.runs[number]? = some run)
    (waits : run.isWaiting false = true) {other : Nat} {otherRun : Run α}
    (isOther : state.runs[other]? = some otherRun) (otherWaits : otherRun.isWaiting false = true) :
    number = other :=
  orderly.lone.number_eq isRun waits isOther otherWaits

theorem Orderly.firstDue?_eq (orderly : Orderly state) (isRun : state.runs[number]? = some run)
    (waits : run.isWaiting false = true) {time : Nat} (isDue : run.due ≤ time) :
    firstDue? false time state.runs = some number :=
  orderly.lone.firstDue?_eq isRun waits isDue

theorem Orderly.settled_cancelPending (orderly : Orderly state)
    (isRun : state.cancelPending.runs[number]? = some run) : run.isWaiting false = false :=
  orderly.lone.settled_cancelPending isRun

/-- Once a run is settled, the others are in order as before. -/
theorem Orderly.settle (orderly : Orderly state) {later : Debouncer α} {change : Run α → Run α}
    (changed : later.runs = state.runs.modify number change)
    (settles : ∀ run, (change run).generation = run.generation ∧ (change run).isWaiting false = false)
    (sameGeneration : later.generation = state.generation) (sameNow : later.now = state.now)
    (isPending : later.pending = state.pending ∨ state.pending = some number) : Orderly later := by
  have sameLength : later.runs.length = state.runs.length := by rw [changed, List.length_modify]
  have was {other : Nat} {run : Run α} (isRun : later.runs[other]? = some run) :
      ∃ old, state.runs[other]? = some old ∧ (if number = other then change old else old) = run := by
    rw [changed, List.getElem?_modify] at isRun
    exact Option.map_eq_some_iff.1 isRun
  refine ⟨by rw [sameGeneration, sameLength, orderly.current], fun isRun => ?_, fun isRun waits => ?_⟩
  · obtain ⟨old, wasRun, rfl⟩ := was isRun
    rw [apply_ite Run.generation, (settles old).1, ite_self, orderly.numbered wasRun]
  · rename_i other _
    obtain ⟨old, wasRun, rfl⟩ := was isRun
    by_cases same : number = other
    · rw [if_pos same, (settles old).2] at waits
      exact Bool.noConfusion waits
    · rw [if_neg same] at waits ⊢
      obtain ⟨wasPending, isLast, inTime⟩ := orderly.alone wasRun waits
      refine ⟨?_, sameLength ▸ isLast, sameNow ▸ inTime⟩
      rcases isPending with kept | isThis
      · rw [kept, wasPending]
      · exact absurd (Option.some.inj (isThis.symm.trans wasPending)) same

/-- What comes before the end of the pending run is settled by it. -/
theorem Orderly.isSettled_cancelPending (orderly : Orderly state) (known : number < state.runs.length) :
    IsSettled state.cancelPending number := by
  have isRun := List.getElem?_eq_getElem (length_cancelPending state ▸ known)
  exact ⟨_, isRun, orderly.settled_cancelPending isRun⟩

theorem Orderly.cancel (orderly : Orderly state) (cancelled : Nat) : Orderly (state.cancel cancelled) :=
  orderly.settle rfl (fun _ => ⟨rfl, Run.not_isWaiting_of_cancelled rfl⟩) rfl rfl (.inl rfl)

theorem Orderly.cancelPending (orderly : Orderly state) : Orderly state.cancelPending := by
  cases isPending : state.pending with
  | none =>
    rw [Debouncer.cancelPending, isPending]
    exact orderly
  | some number =>
    rw [Debouncer.cancelPending, isPending]
    exact orderly.settle rfl (fun _ => ⟨rfl, Run.not_isWaiting_of_cancelled rfl⟩) rfl rfl (.inr isPending)

theorem Orderly.schedule (orderly : Orderly state) (job : Job α) : Orderly (state.schedule job) := by
  have was {number : Nat} {run : Run α} (isRun : (state.schedule job).runs[number]? = some run) :
      state.cancelPending.runs[number]? = some run ∨ number = state.runs.length ∧
        run = ⟨state.generation + 1, state.now + state.delay, job, false, false⟩ := by
    rw [runs_schedule, List.getElem?_append, length_cancelPending] at isRun
    split at isRun
    · exact .inl isRun
    · rw [List.getElem?_singleton] at isRun
      split at isRun
      · exact .inr ⟨by omega, (Option.some.inj isRun).symm⟩
      · cases isRun
  refine ⟨?_, fun isRun => ?_, fun isRun waits => ?_⟩
  · rw [length_schedule, ← orderly.current, ← generation_cancelPending state]
    rfl
  · rcases was isRun with isOld | ⟨rfl, rfl⟩
    · exact orderly.cancelPending.numbered isOld
    · rw [orderly.current]
  · rcases was isRun with isOld | ⟨rfl, rfl⟩
    · rw [orderly.settled_cancelPending isOld] at waits
      exact Bool.noConfusion waits
    · refine ⟨congrArg some (length_cancelPending state), (length_schedule state job).symm, ?_⟩
      exact Nat.le_trans (Nat.le_of_eq (now_cancelPending state)) (Nat.le_add_right ..)

theorem Orderly.moveTo (orderly : Orderly state) {time : Nat}
    (inTime : ∀ {number : Nat} {run : Run α},
      state.runs[number]? = some run → run.isWaiting false = true → time ≤ run.due) :
    Orderly (state.moveTo time) where
  current := orderly.current
  numbered := orderly.numbered
  alone isRun waits :=
    let ⟨isPending, isLast, notOver⟩ := orderly.alone isRun waits
    ⟨isPending, isLast, Nat.max_le.2 ⟨notOver, inTime isRun waits⟩⟩

theorem Orderly.fire (orderly : Orderly state) (isRun : state.runs[number]? = some run)
    (waits : run.isWaiting false = true) : Orderly (state.act (.fire number)) := by
  refine orderly.settle (runs_fire state number) (fun _ => ⟨rfl, Run.not_isWaiting_of_fired rfl⟩)
    (generation_fire ..) ?_ (.inr (orderly.alone isRun waits).1)
  rw [act]
  split <;> rfl

theorem Orderly.asked (orderly : Orderly state) {act : Act α} (isAsked : act.isAsked = true) :
    Orderly (state.act act) := by
  cases act with
  | schedule job => exact orderly.schedule job
  | cancelPending => exact orderly.cancelPending
  | cancel number => exact orderly.cancel number
  | moveTo => cases isAsked
  | fire => cases isAsked

theorem Orderly.passed (orderly : Orderly state) {time : Nat} (none : firstDue? false time state.runs = none) :
    Orderly (state.moveTo time) :=
  orderly.moveTo fun isRun waits => Nat.le_of_lt (firstDue?_eq_none none isRun waits)

/-- The clock may come to a timer that is next, since no other one waits. -/
theorem Orderly.moveToDue (orderly : Orderly state) (isRun : state.runs[number]? = some run)
    (waits : run.isWaiting false = true) : Orderly (state.moveTo run.due) :=
  orderly.moveTo (orderly.lone.due_le isRun waits)

theorem Orderly.fired (orderly : Orderly state) {until_ : Nat}
    (found : firstDue? false until_ state.runs = some number) (isRun : state.runs[number]? = some run) :
    Orderly ((state.moveTo run.due).act (.fire number)) := by
  have waits := isWaiting_of_firstDue? found isRun
  exact (orderly.moveToDue isRun waits).fire isRun waits

/-- Nothing waits behind the timer that fires. -/
theorem Orderly.settled_fire (orderly : Orderly state) (isRun : state.runs[number]? = some run)
    (waits : run.isWaiting false = true) {other : Nat} {otherRun : Run α}
    (isOther : (state.act (.fire number)).runs[other]? = some otherRun) : otherRun.isWaiting false = false := by
  rw [runs_fire, runs_markFired, Option.map_eq_some_iff] at isOther
  obtain ⟨old, wasRun, rfl⟩ := isOther
  split
  · exact Run.not_isWaiting_of_fired rfl
  · rename_i different
    refine Bool.eq_false_iff.2 fun otherWaits => different ?_
    exact orderly.number_eq isRun waits wasRun otherWaits

theorem IsSettled.modify (settled : IsSettled state number) {later : Debouncer α} {change : Run α → Run α}
    {changedNumber : Nat} (changed : later.runs = state.runs.modify changedNumber change)
    (keeps : ∀ run, run.isWaiting false = false → (change run).isWaiting false = false) :
    IsSettled later number := by
  obtain ⟨run, isRun, isSettled⟩ := settled
  refine ⟨if changedNumber = number then change run else run, ?_, ?_⟩
  · rw [changed, List.getElem?_modify, isRun]
    rfl
  · split
    · exact keeps run isSettled
    · exact isSettled

theorem IsSettled.cancelPending (settled : IsSettled state number) : IsSettled state.cancelPending number := by
  cases isPending : state.pending with
  | none =>
    rw [Debouncer.cancelPending, isPending]
    exact settled
  | some number =>
    rw [Debouncer.cancelPending, isPending]
    exact settled.modify rfl fun _ _ => Run.not_isWaiting_of_cancelled rfl

theorem IsSettled.schedule (settled : IsSettled state.cancelPending number) (job : Job α) :
    IsSettled (state.schedule job) number := by
  obtain ⟨run, isRun, isSettled⟩ := settled
  refine ⟨run, ?_, isSettled⟩
  rw [runs_schedule, List.getElem?_append_left (List.getElem?_eq_some_iff.1 isRun).1, isRun]

/-- A settled run stays settled, whatever happens. -/
theorem IsSettled.act (settled : IsSettled state number) (act : Act α) : IsSettled (state.act act) number := by
  cases act with
  | schedule job => exact settled.cancelPending.schedule job
  | cancelPending => exact settled.cancelPending
  | cancel => exact settled.modify rfl fun _ _ => Run.not_isWaiting_of_cancelled rfl
  | moveTo => exact settled
  | fire number => exact settled.modify (runs_fire state number) fun _ _ => Run.not_isWaiting_of_fired rfl

end Debouncer
end Flowchart
