import Flowchart.Proofs.Debounce.Exact

/-!
The generations alone keep a debouncer in order. Its loop may break every promise but one: timers fire at any
moment and in any order, cancelled ones as well, though none of them fires twice. A job is still done only while
it is the last one that was scheduled.
-/
namespace Flowchart.Debouncer

variable {α : Type} {state : Debouncer α} {acts : List (Act α)} {number : Nat}

/-- The run whose timer fires. -/
def Act.fired? : Act α → Option Nat
  | .fire number => some number
  | _ => none

/-- The job that is scheduled. -/
def Act.scheduled? : Act α → Option (Job α)
  | .schedule job => some job
  | _ => none

/-- What a turn of the loop comes to. When a timer fires, its job is done in the same turn. -/
def turn (state : Debouncer α) : Act α → Debouncer α
  | .fire number => state.fire number
  | act => state.act act

/-- What happens in a turn. -/
def turnActs (state : Debouncer α) : Act α → List (Act α)
  | .fire number => .fire number :: ((state.startable? number).elim [] Job.next).map .schedule
  | act => [act]

/-- All that happens in some turns. -/
def chronicle (state : Debouncer α) : List (Act α) → List (Act α)
  | [] => []
  | act :: turns => state.turnActs act ++ (state.turn act).chronicle turns

theorem foldl_turnActs (state : Debouncer α) (act : Act α) :
    (state.turnActs act).foldl Debouncer.act state = state.turn act := by
  cases act with
  | fire number =>
    rw [turnActs, turn, List.foldl_cons, foldl_schedules, Debouncer.act, fire, startable?]
    cases found : state.runs[number]? with
    | none =>
      have same : state.runs.modify number (fun run => { run with fired := true }) = state.runs :=
        List.modify_eq_self (List.getElem?_eq_none_iff.1 found)
      simp only [Option.bind_none, Option.elim_none, List.foldl_nil, markFired, same]
    | some run =>
      by_cases current : run.generation = state.generation
      · simp only [Option.bind_some, if_pos current, Option.elim_some]
        rw [if_pos (show run.generation = (state.markFired number).generation from current)]
        rfl
      · simp only [Option.bind_some, if_neg current, Option.elim_none, List.foldl_nil]
        rw [if_neg (show run.generation ≠ (state.markFired number).generation from current)]
  | _ => rfl

theorem foldl_chronicle (state : Debouncer α) (turns : List (Act α)) :
    (state.chronicle turns).foldl Debouncer.act state = turns.foldl turn state := by
  induction turns generalizing state with
  | nil => rfl
  | cons act turns ih => rw [chronicle, List.foldl_append, foldl_turnActs, ih, List.foldl_cons]

/-- The jobs of a turn fire no timer. -/
theorem fired_chronicle (state : Debouncer α) (turns : List (Act α)) :
    (state.chronicle turns).filterMap Act.fired? = turns.filterMap Act.fired? := by
  induction turns generalizing state with
  | nil => rfl
  | cons act turns ih =>
    have here : (state.turnActs act).filterMap Act.fired? = [act].filterMap Act.fired? := by
      cases act with
      | fire number => simp [turnActs, List.filterMap_map, Act.fired?, Function.comp_def]
      | _ => rfl
    rw [chronicle, List.filterMap_append, here, ih, ← List.filterMap_append]
    rfl

/-- Runs have the generations one, two and so on, in the order in which they were scheduled. -/
def Numbered (state : Debouncer α) : Prop :=
  state.runs.map Run.generation = List.range' 1 state.generation

theorem map_modify {β : Type} {view : Run α → β} {change : Run α → Run α}
    (keeps : ∀ run, view (change run) = view run) (runs : List (Run α)) (number : Nat) :
    (runs.modify number change).map view = runs.map view := by
  apply List.ext_getElem?
  intro place
  rw [List.getElem?_map, List.getElem?_modify, List.getElem?_map]
  cases runs[place]? with
  | none => rfl
  | some run =>
    show some (view (if number = place then change run else run)) = some (view run)
    rw [apply_ite view, keeps, ite_self]

theorem map_cancelPending {β : Type} {view : Run α → β}
    (keeps : ∀ run : Run α, view { run with cancelled := true } = view run) (state : Debouncer α) :
    state.cancelPending.runs.map view = state.runs.map view := by
  rw [cancelPending]
  split
  · rfl
  · exact map_modify keeps _ _

/-- What an act does to the runs, in the eyes of a view that sees neither cancellations nor timers. -/
theorem map_act {β : Type} {view : Run α → β}
    (blindToCancel : ∀ run : Run α, view { run with cancelled := true } = view run)
    (blindToFire : ∀ run : Run α, view { run with fired := true } = view run) (state : Debouncer α) (act : Act α) :
    (state.act act).runs.map view = state.runs.map view ++ act.scheduled?.toList.map fun job =>
      view ⟨state.generation + 1, state.now + state.delay, job, false, false⟩ := by
  cases act with
  | schedule job =>
    rw [Debouncer.act, runs_schedule, List.map_append, map_cancelPending blindToCancel]
    rfl
  | cancelPending => exact (map_cancelPending blindToCancel state).trans (List.append_nil _).symm
  | cancel cancelled => exact (map_modify blindToCancel _ _).trans (List.append_nil _).symm
  | moveTo => exact (List.append_nil _).symm
  | fire fired =>
    rw [runs_fire]
    exact (map_modify blindToFire _ _).trans (List.append_nil _).symm

theorem generation_act (state : Debouncer α) (act : Act α) :
    (state.act act).generation = state.generation + act.scheduled?.toList.length := by
  cases act with
  | schedule job => exact congrArg (· + 1) (generation_cancelPending state)
  | cancelPending => exact generation_cancelPending state
  | cancel => rfl
  | moveTo => rfl
  | fire number => exact generation_fire state number

theorem Numbered.act (numbered : Numbered state) (act : Act α) : Numbered (state.act act) := by
  rw [Numbered, map_act (fun _ => rfl) (fun _ => rfl), numbered, generation_act]
  cases act.scheduled? with
  | none => simp
  | some job => simp [List.range'_concat, Nat.add_comm]

theorem Numbered.foldl (numbered : Numbered state) (acts : List (Act α)) :
    Numbered (acts.foldl Debouncer.act state) := by
  induction acts generalizing state with
  | nil => exact numbered
  | cons act acts ih => exact ih (numbered.act act)

/-- The jobs of the runs are those that were scheduled. -/
theorem jobs_foldl (state : Debouncer α) (acts : List (Act α)) :
    (acts.foldl Debouncer.act state).runs.map Run.job = state.runs.map Run.job ++ acts.filterMap Act.scheduled? := by
  induction acts generalizing state with
  | nil => simp
  | cons act acts ih =>
    rw [List.foldl_cons, ih, map_act (fun _ => rfl) (fun _ => rfl), List.append_assoc]
    cases isScheduled : act.scheduled? <;> simp [isScheduled]

/-- A fresh debouncer has just the runs that are scheduled. -/
theorem jobs_start (delay : Nat) (acts : List (Act α)) :
    (acts.foldl Debouncer.act { delay }).runs.map Run.job = acts.filterMap Act.scheduled? :=
  jobs_foldl _ acts

theorem length_start (delay : Nat) (acts : List (Act α)) :
    (acts.foldl Debouncer.act { delay }).runs.length = (acts.filterMap Act.scheduled?).length := by
  rw [← jobs_start delay, List.length_map]

theorem Numbered.generation_eq (numbered : Numbered state) : state.generation = state.runs.length := by
  simpa using (congrArg List.length numbered).symm

/-- A timer that fires starts a job only if its run is the last one. -/
theorem Numbered.last_of_startable {job : Job α} (numbered : Numbered state)
    (starts : state.startable? number = some job) :
    number + 1 = state.runs.length ∧ (state.runs.map Run.job).getLast? = some job := by
  obtain ⟨run, isRun, starts⟩ := Option.bind_eq_some_iff.1 starts
  have current : run.generation = state.generation := by
    apply Decidable.byContradiction
    intro stale
    rw [if_neg stale] at starts
    cases starts
  obtain rfl : run.job = job := by
    rw [if_pos current] at starts
    exact Option.some.inj starts
  have isGeneration : (List.range' 1 state.generation)[number]? = some state.generation := by
    rw [← numbered, List.getElem?_map, isRun, ← current]
    rfl
  have isLast : number + 1 = state.runs.length := by
    obtain ⟨known, isNumber⟩ := List.getElem?_eq_some_iff.1 isGeneration
    rw [List.getElem_range'] at isNumber
    rw [← numbered.generation_eq]
    omega
  refine ⟨isLast, ?_⟩
  rw [List.getLast?_map, List.getLast?_eq_getElem?, ← isLast, Nat.add_sub_cancel, isRun]
  rfl

theorem Numbered.last_of_executed {act : Act α} {execution : Execution α} (numbered : Numbered state)
    (executed : state.executed? act = some execution) :
    act = .fire execution.number ∧ execution.number + 1 = state.runs.length := by
  cases act with
  | fire number =>
    obtain ⟨job, starts, rfl⟩ := Option.map_eq_some_iff.1 executed
    exact ⟨rfl, (numbered.last_of_startable starts).1⟩
  | _ => cases executed

/-- Of the runs that were scheduled so far, only the last one may still be executed. -/
theorem Numbered.late {execution : Execution α} (numbered : Numbered state)
    (mem : execution ∈ executions state acts) :
    .fire execution.number ∈ acts ∧ state.runs.length ≤ execution.number + 1 := by
  induction acts generalizing state with
  | nil => cases mem
  | cons act acts ih =>
    rcases List.mem_append.1 mem with here | later
    · obtain ⟨rfl, isLast⟩ := numbered.last_of_executed (Option.mem_toList.1 here)
      exact ⟨List.mem_cons_self, Nat.le_of_eq isLast.symm⟩
    · obtain ⟨fires, isLate⟩ := ih (numbered.act act) later
      rw [length_act] at isLate
      exact ⟨List.mem_cons_of_mem _ fires, by omega⟩

/-- Where no timer fires twice, each run that is executed was scheduled later than those executed before. -/
theorem Numbered.ascending (numbered : Numbered state) (once : (acts.filterMap Act.fired?).Nodup) :
    (executions state acts).Pairwise fun first later => first.number < later.number := by
  induction acts generalizing state with
  | nil => exact .nil
  | cons act acts ih =>
    have next : (executions (state.act act) acts).Pairwise fun first later => first.number < later.number :=
      ih (numbered.act act) (once.sublist ((List.sublist_cons_self act acts).filterMap _))
    rw [executions]
    cases executed : state.executed? act with
    | none => exact next
    | some execution =>
      obtain ⟨rfl, isLast⟩ := numbered.last_of_executed executed
      refine .cons (fun later mem => ?_) next
      obtain ⟨fires, isLate⟩ := (numbered.act _).late mem
      have other : execution.number ≠ later.number := by
        intro same
        apply (List.nodup_cons.1 once).1
        exact List.mem_filterMap.2 ⟨_, fires, congrArg some same.symm⟩
      rw [length_act] at isLate
      omega

/-- The generation of a run. -/
def generation? (state : Debouncer α) (number : Nat) : Option Nat :=
  state.runs[number]?.map Run.generation

theorem Numbered.generation?_eq (numbered : Numbered state) (known : number < state.runs.length) :
    state.generation? number = some (number + 1) := by
  rw [generation?, ← List.getElem?_map, numbered, List.getElem?_range' (by rw [numbered.generation_eq]; exact known)]
  exact congrArg some (by omega)

/-- What the generations make of the turns of a loop that keeps no order. -/
structure Guarded (start : Debouncer α) (turns : List (Act α)) : Prop where
  recorded : (turns.foldl turn start).calls = start.calls ++
    (executions start (start.chronicle turns)).map fun execution => (execution.time, execution.action)
  latest : ∀ before act after execution, start.chronicle turns = before ++ act :: after →
    (before.foldl Debouncer.act start).executed? act = some execution →
    ∃ superseded job, before.filterMap Act.scheduled? = superseded ++ [job] ∧
      execution.number = superseded.length ∧ execution.action = job.action
  superseded : ∀ before job between later after,
    start.chronicle turns = before ++ .schedule job :: (between ++ .schedule later :: after) →
    ∀ execution ∈ executions ((before ++ .schedule job :: between).foldl Debouncer.act start)
        (.schedule later :: after),
      execution.number ≠ (before.filterMap Act.scheduled?).length
  once : ((executions start (start.chronicle turns)).map Execution.number).Nodup
  increasing : ∃ generations : List Nat, generations.Pairwise (· < ·) ∧
    (executions start (start.chronicle turns)).map
      (fun execution => (turns.foldl turn start).generation? execution.number) = generations.map some

theorem generations_guard (delay : Nat) (turns : List (Act α)) (once : (turns.filterMap Act.fired?).Nodup) :
    Guarded { delay } turns := by
  have numbered : Numbered { delay : Debouncer α } := rfl
  have ascending : (executions { delay } (chronicle { delay } turns)).Pairwise
      fun first later => first.number < later.number :=
    numbered.ascending (by rw [fired_chronicle]; exact once)
  refine ⟨?recorded, ?latest, ?superseded, ?once, ?increasing⟩
  case recorded => rw [← foldl_chronicle, calls_foldl]
  case latest =>
    intro before act after execution _ executed
    have isNumbered := numbered.foldl before
    obtain ⟨rfl, isLast⟩ := isNumbered.last_of_executed executed
    obtain ⟨job, starts, isExecution⟩ := Option.map_eq_some_iff.1 executed
    have lastJob := (isNumbered.last_of_startable starts).2
    rw [jobs_start] at lastJob
    obtain ⟨superseded, split⟩ := List.getLast?_eq_some_iff.1 lastJob
    rw [length_start, split, List.length_append] at isLast
    exact ⟨superseded, job, split, Nat.succ.inj isLast, isExecution ▸ rfl⟩
  case superseded =>
    intro before job between later after _ execution mem
    -- The later schedule comes first, so two more runs than before are known when anything is executed.
    rw [executions_asked rfl] at mem
    have isLate := (((numbered.foldl _).act _).late mem).2
    rw [Debouncer.act, length_schedule, length_start, List.filterMap_append, List.length_append] at isLate
    simp only [List.filterMap_cons, Act.scheduled?, List.length_cons] at isLate
    omega
  case once => exact List.pairwise_map.2 (ascending.imp Nat.ne_of_lt)
  case increasing =>
    refine ⟨(executions { delay } (chronicle { delay } turns)).map (·.number + 1), ?_, ?_⟩
    · exact List.pairwise_map.2 (ascending.imp Nat.succ_lt_succ)
    · rw [List.map_map]
      apply List.map_congr_left
      intro execution mem
      rw [← foldl_chronicle]
      exact (numbered.foldl _).generation?_eq (number_lt_of_mem mem)

/-- The timer of a cancelled run fires, and so do those of runs that were superseded, by a job as well. -/
theorem generations_guard_cancelled :
    let turns : List (Act Char) := [.schedule (.once 'a'), .schedule (.mk 'b' [.once 'c', .once 'd']), .cancelPending,
      .fire 1, .fire 2, .fire 0, .cancel 3, .moveTo 7, .fire 3]
    (turns.filterMap Act.fired?).Nodup ∧ Guarded { delay := 300 } turns ∧
      (turns.foldl turn { delay := 300 }).calls = [(0, 'b'), (7, 'd')] :=
  ⟨by decide, generations_guard 300 _ (by decide), rfl⟩

end Flowchart.Debouncer
