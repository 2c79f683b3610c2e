import Flowchart.Proofs.Debounce.Execution

/-!
Debouncing is exact: wherever in a history a job is scheduled, its run is executed if and only if the clock
reaches its time before anything takes its place or cancels it, and then once and at that time. So only the last
job of a burst is done.
-/
namespace Flowchart.Debouncer

variable {α : Type} {state : Debouncer α} {acts : List (Act α)} {number due : Nat}

/-- At every schedule the debouncer is in order, and the loop goes on as it promises. -/
theorem kept_at_schedule {before after : List (Act α)} {job : Job α} (orderly : Orderly state)
    (kept : Kept false state acts) (split : acts = before ++ .schedule job :: after) :
    Orderly (before.foldl Debouncer.act state) ∧
      Kept false (before.foldl Debouncer.act state) (.schedule job :: after) := by
  induction kept generalizing before with
  | nil => cases before <;> cases split
  | @asked state act acts isAsked kept ih =>
    rcases before with _ | ⟨first, before⟩
    · cases split
      exact ⟨orderly, .asked isAsked kept⟩
    · cases split
      exact ih (orderly.asked isAsked) rfl
  | @passed state time acts none kept ih =>
    rcases before with _ | ⟨first, before⟩
    · cases split
    · cases split
      exact ih (orderly.passed none) rfl
  | @fired state until_ fired next acts found isNext kept ih =>
    rcases before with _ | ⟨first, _ | ⟨second, before⟩⟩
    · cases split
    · cases split
    · cases split
      exact ih (orderly.fired found isNext) rfl

theorem Orderly.foldl (orderly : Orderly state) (kept : Kept false state acts) :
    Orderly (acts.foldl Debouncer.act state) := by
  induction kept with
  | nil => exact orderly
  | asked isAsked _ ih => exact ih (orderly.asked isAsked)
  | passed none _ ih => exact ih (orderly.passed none)
  | fired found isRun _ ih => exact ih (orderly.fired found isRun)

theorem now_le_act (state : Debouncer α) (act : Act α) : state.now ≤ (state.act act).now := by
  cases act with
  | schedule => exact Nat.le_of_eq (now_cancelPending state).symm
  | cancelPending => exact Nat.le_of_eq (now_cancelPending state).symm
  | cancel => exact Nat.le_refl _
  | moveTo => exact Nat.le_max_left ..
  | fire =>
    rw [Debouncer.act]
    split <;> exact Nat.le_refl _

theorem delay_act (state : Debouncer α) (act : Act α) : (state.act act).delay = state.delay := by
  cases act with
  | schedule => exact delay_cancelPending state
  | cancelPending => exact delay_cancelPending state
  | cancel => rfl
  | moveTo => rfl
  | fire =>
    rw [Debouncer.act]
    split <;> rfl

/-- What every act keeps to is kept to along all that happens. -/
theorem related_foldl (related : Debouncer α → Debouncer α → Prop) (refl : ∀ state, related state state)
    (trans : ∀ {first second third}, related first second → related second third → related first third)
    (step : ∀ state act, related state (state.act act)) (state : Debouncer α) (acts : List (Act α)) :
    related state (acts.foldl Debouncer.act state) := by
  induction acts generalizing state with
  | nil => exact refl state
  | cons act acts ih => exact trans (step state act) (ih (state.act act))

theorem now_le_foldl (state : Debouncer α) (acts : List (Act α)) :
    state.now ≤ (acts.foldl Debouncer.act state).now :=
  related_foldl (fun first later => first.now ≤ later.now) (fun _ => Nat.le_refl _) Nat.le_trans now_le_act state acts

theorem delay_foldl (state : Debouncer α) (acts : List (Act α)) :
    state.delay = (acts.foldl Debouncer.act state).delay :=
  related_foldl (fun first later => first.delay = later.delay) (fun _ => rfl) Eq.trans
    (fun state act => (delay_act state act).symm) state acts

theorem length_le_foldl (state : Debouncer α) (acts : List (Act α)) :
    state.runs.length ≤ (acts.foldl Debouncer.act state).runs.length := by
  refine related_foldl (fun first later => first.runs.length ≤ later.runs.length) (fun _ => Nat.le_refl _)
    Nat.le_trans (fun state act => ?_) state acts
  rw [length_act]
  exact Nat.le_add_right ..

theorem number_lt_of_mem {execution : Execution α} (mem : execution ∈ executions state acts) :
    execution.number < (acts.foldl Debouncer.act state).runs.length := by
  rcases scheduled_of_mem mem with old | ⟨before, job, after, rfl, isNumber⟩
  · exact Nat.lt_of_lt_of_le old (length_le_foldl state acts)
  · rw [List.foldl_append, ← isNumber]
    refine Nat.lt_of_lt_of_le ?_ (length_le_foldl _ after)
    rw [length_act]
    exact Nat.lt_succ_self _

theorem IsExact.append {front done : List (Execution α)} {action : α}
    (isExact : IsExact done number due action acts) (others : ∀ execution ∈ front, execution.number ≠ number) :
    IsExact (front ++ done) number due action acts := by
  constructor
  · rw [← isExact.iff]
    constructor
    · rintro ⟨execution, mem, isNumber⟩
      rcases List.mem_append.1 mem with early | late
      · exact absurd isNumber (others execution early)
      · exact ⟨execution, late, isNumber⟩
    · rintro ⟨execution, mem, isNumber⟩
      exact ⟨execution, List.mem_append_right _ mem, isNumber⟩
  · intro reached
    rw [List.filter_append, isExact.once reached, List.filter_eq_nil_iff.2, List.nil_append]
    intro execution mem
    simpa using others execution mem

/-- A run comes to what its schedule says, wherever in a history it is scheduled. -/
theorem isExact_of_schedule {before after : List (Act α)} {job : Job α} (orderly : Orderly state)
    (kept : Kept false state (before ++ .schedule job :: after)) :
    IsExact (executions state (before ++ .schedule job :: after))
      (before.foldl Debouncer.act state).runs.length
      ((before.foldl Debouncer.act state).now + state.delay) job.action after := by
  obtain ⟨here, onward⟩ := kept_at_schedule orderly kept rfl
  have scheduled : Kept false ((before.foldl Debouncer.act state).schedule job) after := by
    cases onward with
    | asked _ scheduled => exact scheduled
  have fate := isExact_of_waiting (here.schedule job) scheduled (runs_schedule_new _ job) rfl
  rw [← delay_foldl] at fate
  rw [executions_append, executions_asked rfl]
  exact fate.append fun execution mem => Nat.ne_of_lt (number_lt_of_mem mem)

/-- A schedule that comes in time disturbs what was scheduled before. -/
theorem not_reached_of_schedule {between after : List (Act α)} {later : Job α}
    (early : (between.foldl Debouncer.act state).now < due) :
    ¬Reached number due (between ++ .schedule later :: after) := by
  induction between generalizing state with
  | nil =>
    intro reached
    rcases reached_cons.1 reached with ⟨time, isTime, -⟩ | ⟨undisturbed, -⟩
    · cases isTime
    · exact undisturbed trivial
  | cons act between ih =>
    intro reached
    rcases reached_cons.1 reached with ⟨time, rfl, isDue⟩ | ⟨-, reached⟩
    · have moved := now_le_foldl (state.act (.moveTo time)) between
      have isTime : time ≤ (state.act (.moveTo time)).now := Nat.le_max_right ..
      rw [List.foldl_cons] at early
      omega
    · exact ih early reached

theorem settling_of_none {until_ : Nat} (none : firstDue? false until_ state.runs = none) (fuel : Nat) :
    settling false until_ fuel state = [.moveTo until_] := by
  cases fuel with
  | zero => rfl
  | succ fuel => rw [settling, none]

theorem advance_early {time : Nat} (early : ∀ {number : Nat} {run : Run α},
    state.runs[number]? = some run → run.isWaiting false = true → state.now + time < run.due) :
    state.advance false time = state.moveTo (state.now + time) := by
  rw [advance, ← foldl_settling, settling_of_none (firstDue?_none_of early)]
  rfl

/-- Jobs that are scheduled one after another, each with the time that passes behind it. -/
def burst (items : List (Job α × Nat)) : List (Step α) :=
  items.flatMap fun (job, gap) => [.schedule job, .advance gap]

/-- How long a burst goes on. -/
def duration : List (Job α × Nat) → Nat
  | [] => 0
  | (_, gap) :: items => gap + duration items

/-- The only timer that waits behind a schedule is the new one. -/
theorem due_of_schedule {job : Job α} {run : Run α} (orderly : Orderly state)
    (isRun : (state.schedule job).runs[number]? = some run) (waits : run.isWaiting false = true) :
    number = state.runs.length ∧ run = ⟨state.generation + 1, state.now + state.delay, job, false, false⟩ := by
  have new := runs_schedule_new state job
  obtain rfl := (orderly.schedule job).number_eq isRun waits new rfl
  exact ⟨rfl, Option.some.inj (isRun.symm.trans new)⟩

theorem now_schedule (state : Debouncer α) (job : Job α) : (state.schedule job).now = state.now :=
  now_cancelPending state

/-- No job is done while a burst goes on. -/
theorem run_burst (orderly : Orderly state) {items : List (Job α × Nat)}
    (close : ∀ item ∈ items, item.2 < state.delay) :
    let later := state.run false (burst items)
    Orderly later ∧ later.calls = state.calls ∧ later.delay = state.delay ∧
      later.now = state.now + duration items := by
  induction items generalizing state with
  | nil => exact ⟨orderly, rfl, rfl, rfl⟩
  | cons item items ih =>
    obtain ⟨job, gap⟩ := item
    obtain ⟨isClose, close⟩ := List.forall_mem_cons.1 close
    have early {number : Nat} {run : Run α} (isRun : (state.schedule job).runs[number]? = some run)
        (waits : run.isWaiting false = true) : (state.schedule job).now + gap < run.due := by
      obtain ⟨-, rfl⟩ := due_of_schedule orderly isRun waits
      rw [now_schedule]
      exact Nat.add_lt_add_left isClose _
    have passes := advance_early early
    have moved : Orderly ((state.schedule job).advance false gap) := by
      rw [passes]
      exact (orderly.schedule job).moveTo fun isRun waits => Nat.le_of_lt (early isRun waits)
    have sameDelay : ((state.schedule job).advance false gap).delay = state.delay := by
      rw [passes]
      exact delay_act state (.schedule job)
    have sameCalls : ((state.schedule job).advance false gap).calls = state.calls := by
      rw [passes]
      exact calls_schedule state job
    have isNow : ((state.schedule job).advance false gap).now = state.now + gap := by
      rw [passes, moveTo, now_schedule]
      exact Nat.max_eq_right (Nat.le_add_right ..)
    obtain ⟨inOrder, calls, delay, now⟩ := ih moved (sameDelay ▸ close)
    refine ⟨inOrder, calls.trans sameCalls, delay.trans sameDelay, now.trans ?_⟩
    rw [isNow, duration, Nat.add_assoc]

theorem firstDue?_schedule {job : Job α} (orderly : Orderly state) {until_ : Nat}
    (isDue : state.now + state.delay ≤ until_) :
    firstDue? false until_ (state.schedule job).runs = some state.runs.length :=
  (orderly.schedule job).firstDue?_eq (runs_schedule_new state job) rfl isDue

/-- A timer that is due is the first to fire, and the last one if its job schedules nothing. -/
theorem executions_settling {until_ : Nat} {run : Run α} (orderly : Orderly state)
    (found : firstDue? false until_ state.runs = some number) (isRun : state.runs[number]? = some run)
    (fuel : Nat) :
    ∃ more, executions state (settling false until_ (fuel + 1) state) =
      ⟨number, run.due, run.job.action⟩ :: more ∧ (run.job.next = [] → more = []) := by
  have waits := isWaiting_of_firstDue? found isRun
  have fires := firing_of_current isRun (orderly.generation_eq isRun waits)
  rw [settling, found]
  simp only [fires, List.cons_append]
  rw [executions_fired orderly found isRun]
  refine ⟨_, rfl, fun last => ?_⟩
  have lands : state.fireAtDue number = (state.moveTo run.due).act (.fire number) := by
    rw [← foldl_firing, fires, last]
    rfl
  have none : firstDue? false until_ (state.fireAtDue number).runs = none := by
    refine firstDue?_none_of fun isOther otherWaits => ?_
    rw [lands] at isOther
    rw [(orderly.moveToDue isRun waits).settled_fire isRun waits isOther] at otherWaits
    cases otherWaits
  rw [settling_of_none none, last]
  rfl

/-- A job that is left alone is done after the delay. -/
theorem advance_schedule (orderly : Orderly state) (job : Job α) {time : Nat} (enough : state.delay ≤ time) :
    ∃ more, ((state.schedule job).advance false time).calls =
      state.calls ++ (state.now + state.delay, job.action) :: more ∧ (job.next = [] → more = []) := by
  have isNew := runs_schedule_new state job
  have found : firstDue? false ((state.schedule job).now + time) (state.schedule job).runs =
      some state.runs.length := by
    refine firstDue?_schedule orderly ?_
    rw [now_schedule]
    exact Nat.add_le_add_left enough _
  have less := work_fireAtDue_lt isNew (isWaiting_of_firstDue? found isNew)
  obtain ⟨fuel, isFuel⟩ := Nat.exists_eq_add_one.2 (Nat.zero_lt_of_lt less)
  obtain ⟨more, executed, last⟩ := executions_settling (orderly.schedule job) found isNew fuel
  refine ⟨more.map fun execution => (execution.time, execution.action), ?_, ?_⟩
  · rw [advance, isFuel, ← foldl_settling, calls_foldl, executed, calls_schedule]
    rfl
  · intro isLast
    rw [last isLast]
    rfl

theorem orderly_run (delay : Nat) (steps : List (Step α)) : Orderly (({ delay } : Debouncer α).run false steps) := by
  rw [run_eq_foldl_history]
  exact (orderly_start delay).foldl (kept_history _ steps)

theorem delay_run (state : Debouncer α) (steps : List (Step α)) : (state.run false steps).delay = state.delay := by
  rw [run_eq_foldl_history, ← delay_foldl]

/-- What a run over steps makes of the jobs that are scheduled in its history. -/
structure Debounces (start : Debouncer α) (steps : List (Step α)) : Prop where
  recorded : (start.run false steps).calls =
    (executions start (start.history false steps)).map fun execution => (execution.time, execution.action)
  scheduled : ∀ execution ∈ executions start (start.history false steps),
    ∃ before job after, start.history false steps = before ++ .schedule job :: after ∧
      (before.foldl act start).runs.length = execution.number
  executed : ∀ before job after, start.history false steps = before ++ .schedule job :: after →
    IsExact (executions start (start.history false steps)) (before.foldl act start).runs.length
      ((before.foldl act start).now + start.delay) job.action after
  superseded : ∀ before job between later after,
    start.history false steps = before ++ .schedule job :: (between ++ .schedule later :: after) →
    ((before ++ .schedule job :: between).foldl act start).now < (before.foldl act start).now + start.delay →
    ∀ execution ∈ executions start (start.history false steps),
      execution.number ≠ (before.foldl act start).runs.length
  bursts : ∀ earlier items last time, steps = earlier ++ burst items ++ [.schedule last, .advance time] →
    (∀ item ∈ items, item.2 < start.delay) → start.delay ≤ time →
    ∃ more, (start.run false steps).calls = (start.run false earlier).calls ++
        ((start.run false earlier).now + duration items + start.delay, last.action) :: more ∧
      (last.next = [] → more = [])

theorem debounces (delay : Nat) (steps : List (Step α)) : Debounces { delay } steps := by
  have orderly : Orderly { delay : Debouncer α } := orderly_start delay
  have kept : Kept false { delay : Debouncer α } _ := kept_history _ steps
  refine ⟨?recorded, ?scheduled, ?executed, ?superseded, ?bursts⟩
  case recorded =>
    rw [run_eq_foldl_history, calls_foldl]
    rfl
  case scheduled =>
    intro execution mem
    rcases scheduled_of_mem mem with known | during
    · exact absurd known (Nat.not_lt_zero _)
    · exact during
  case executed =>
    intro before job after split
    rw [split] at kept ⊢
    exact isExact_of_schedule orderly kept
  case superseded =>
    intro before job between later after split early execution mem isNumber
    rw [split] at kept mem
    rw [List.foldl_append, List.foldl_cons] at early
    have fate := isExact_of_schedule orderly kept
    exact not_reached_of_schedule early (fate.iff.1 ⟨execution, mem, isNumber⟩)
  case bursts =>
    intro earlier items last time split close enough
    subst split
    have sameDelay := delay_run { delay : Debouncer α } earlier
    obtain ⟨inOrder, calls, stillDelay, now⟩ := run_burst (orderly_run delay earlier) (sameDelay.symm ▸ close)
    have isDelay := stillDelay.trans sameDelay
    obtain ⟨more, done, isLast⟩ := advance_schedule inOrder last (isDelay.symm ▸ enough)
    refine ⟨more, ?_, isLast⟩
    rw [calls, now, isDelay] at done
    rw [← done]
    simp only [run, List.foldl_append]
    rfl

example : (({ delay := 300 } : Debouncer Char).run false
    (burst [(.once 'a', 299), (.once 'b', 299)] ++ [.schedule (.once 'c'), .advance 300])).calls =
      [(898, 'c')] := by
  rfl

end Flowchart.Debouncer
