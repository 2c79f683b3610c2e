import Flowchart.Proofs.Debounce.Outlook

/-!
Schedules that fail for want of a clock. Such a schedule raises the generation and ends the turn of the pending run
before it fails, and no run takes the place of that one. So nothing is executed behind it, whatever was to be executed,
and from then on the generation is one that no run has.
-/
namespace Flowchart.Debouncer

variable {α : Type} {state start : Debouncer α} {acts : List (Act α)} {number : Nat} {stubborn : Bool}

/-- One thing that happens where some callers have no clock. -/
inductive Event (α : Type) where
  | act (act : Act α)
  | fail (job : Job α)

def happen (state : Debouncer α) : Event α → Debouncer α
  | .act act => state.act act
  | .fail job => (state.schedule? false job).2

/-- What is asked of a debouncer by callers of whom some have no clock. -/
inductive Call (α : Type) where
  | ask (asked : Step α)
  | fail (job : Job α)

def Call.events (stubborn : Bool) (state : Debouncer α) : Call α → List (Event α)
  | .ask asked => (asked.acts stubborn state).map .act
  | .fail job => [.fail job]

/-- All that happens while calls come one after another. -/
def events (stubborn : Bool) (state : Debouncer α) : List (Call α) → List (Event α)
  | [] => []
  | call :: calls =>
    let first := call.events stubborn state
    first ++ (first.foldl happen state).events stubborn calls

/-- How many schedules have failed since the last one that did not. -/
def failures (events : List (Event α)) : Nat :=
  events.foldl tally 0
where
  tally (failed : Nat) : Event α → Nat
    | .fail _ => failed + 1
    | .act (.schedule _) => 0
    | .act _ => failed

/-- The generation of the run that was scheduled last, and zero before the first one. -/
def lastGeneration (state : Debouncer α) : Nat :=
  (state.runs.map Run.generation).getLastD 0

theorem schedule?_false (state : Debouncer α) (job : Job α) : (state.schedule? false job).2 =
    { state.cancelPending with generation := state.generation + 1 } := by
  show state.giveUp = _
  rw [giveUp, generation_cancelPending]

theorem cancelPending_of_none (none : state.pending = none) : state.cancelPending = state := by
  rw [cancelPending, none]

section generations

theorem generations_cancelPending (state : Debouncer α) :
    state.cancelPending.runs.map Run.generation = state.runs.map Run.generation :=
  map_cancelPending (fun _ => rfl) state

theorem generations_act (state : Debouncer α) (act : Act α) : (state.act act).runs.map Run.generation =
    state.runs.map Run.generation ++ act.scheduled?.toList.map fun _ => state.generation + 1 :=
  map_act (fun _ => rfl) (fun _ => rfl) state act

/-- The generation exceeds that of the last run by the schedules that failed since. -/
theorem generation_happen {failed : Nat} (counts : state.generation = state.lastGeneration + failed)
    (event : Event α) :
    (state.happen event).generation = (state.happen event).lastGeneration + failures.tally failed event := by
  cases event with
  | fail job =>
    rw [happen, schedule?_false, lastGeneration, generations_cancelPending, failures.tally]
    exact congrArg (· + 1) counts
  | act act =>
    rw [happen, generation_act, lastGeneration, generations_act]
    cases act with
    | schedule job => simp [Act.scheduled?, failures.tally]
    | _ => simpa [Act.scheduled?, failures.tally, lastGeneration] using counts

theorem generation_foldl {failed : Nat} (counts : state.generation = state.lastGeneration + failed)
    (events : List (Event α)) : (events.foldl happen state).generation =
      (events.foldl happen state).lastGeneration + events.foldl failures.tally failed := by
  induction events generalizing state failed with
  | nil => exact counts
  | cons event events ih => exact ih (generation_happen counts event)

end generations

/-- No run is ahead of the generation, and the pending one is not behind it and waits for its timer. -/
structure Sound (state : Debouncer α) : Prop where
  bounded : ∀ run ∈ state.runs, run.generation ≤ state.generation
  pending : ∀ {number : Nat}, state.pending = some number →
    ∃ run, state.runs[number]? = some run ∧ run.generation = state.generation ∧ run.fired = false

theorem sound_start (delay : Nat) : Sound { delay : Debouncer α } where
  bounded := nofun
  pending := nofun

section sound

theorem bounded_of_map {runs : List (Run α)} {generations : List Nat} {bound : Nat}
    (same : runs.map Run.generation = generations) (bounded : ∀ generation ∈ generations, generation ≤ bound) :
    ∀ run ∈ runs, run.generation ≤ bound :=
  fun _ mem => bounded _ (same ▸ List.mem_map_of_mem mem)

theorem Sound.cancelPending (sound : Sound state) : Sound state.cancelPending where
  bounded := by
    refine bounded_of_map (generations_cancelPending state) fun generation mem => ?_
    obtain ⟨run, isRun, rfl⟩ := List.mem_map.1 mem
    rw [generation_cancelPending]
    exact sound.bounded run isRun
  pending isPending := by
    rw [pending_cancelPending] at isPending
    cases isPending

theorem Sound.act (sound : Sound state) (act : Act α) : Sound (state.act act) := by
  have bounded : ∀ run ∈ (state.act act).runs, run.generation ≤ (state.act act).generation := by
    refine bounded_of_map (generations_act state act) ?_
    rw [generation_act]
    intro generation mem
    rcases List.mem_append.1 mem with old | new
    · obtain ⟨run, isRun, rfl⟩ := List.mem_map.1 old
      exact Nat.le_add_right_of_le (sound.bounded run isRun)
    · cases act with
      | schedule job => exact Nat.le_of_eq (by simpa [Act.scheduled?] using new)
      | _ => cases new
  refine ⟨bounded, fun {number} isPending => ?_⟩
  cases act with
  | schedule job =>
    obtain rfl : state.runs.length = number := by
      rw [← length_cancelPending state]
      exact Option.some.inj isPending
    exact ⟨_, runs_schedule_new state job, (congrArg (· + 1) (generation_cancelPending state)).symm, rfl⟩
  | cancelPending => exact sound.cancelPending.pending isPending
  | cancel cancelled =>
    obtain ⟨run, isRun, isCurrent, unfired⟩ := sound.pending isPending
    refine ⟨_, by rw [Debouncer.act, runs_cancel, isRun]; rfl, ?_⟩
    split
    · exact ⟨isCurrent, unfired⟩
    · exact ⟨isCurrent, unfired⟩
  | moveTo => exact sound.pending isPending
  | fire fired =>
    rw [Debouncer.act] at isPending
    cases starts : state.startable? fired with
    | some job =>
      rw [starts] at isPending
      cases isPending
    | none =>
      rw [starts] at isPending
      obtain ⟨run, isRun, isCurrent, unfired⟩ := sound.pending isPending
      have other : fired ≠ number := by
        rintro rfl
        rw [startable?, isRun, Option.bind_some, if_pos isCurrent] at starts
        cases starts
      refine ⟨run, ?_, isCurrent.trans (generation_fire state fired).symm, unfired⟩
      rw [runs_fire, runs_markFired, isRun, Option.map_some, if_neg other]

theorem Sound.fail (sound : Sound state) (job : Job α) : Sound (state.schedule? false job).2 := by
  rw [schedule?_false]
  refine ⟨fun run mem => ?_, fun isPending => ?_⟩
  · have bound := sound.cancelPending.bounded run mem
    rw [generation_cancelPending] at bound
    exact Nat.le_succ_of_le bound
  · rw [pending_cancelPending] at isPending
    cases isPending

theorem Sound.foldl (sound : Sound state) (events : List (Event α)) : Sound (events.foldl happen state) := by
  induction events generalizing state with
  | nil => exact sound
  | cons event events ih =>
    cases event with
    | act act => exact ih (sound.act act)
    | fail job => exact ih (sound.fail job)

end sound

section lone

theorem Lone.fail (lone : Lone state) (job : Job α) : Lone (state.schedule? false job).2 := by
  rw [schedule?_false]
  exact ⟨fun isRun waits => lone.cancelPending.alone isRun waits⟩

/-- On a loop that honours cancellation only the timer of the pending run waits, wherever the loop stands. -/
theorem Lone.of_split {before after : List (Act α)} (lone : Lone state) (kept : Kept false state acts)
    (split : acts = before ++ after) : Lone (before.foldl Debouncer.act state) :=
  kept.holds (fun isAsked lone => lone.asked isAsked) (fun none lone => lone.passed none)
    (fun found isRun lone => lone.moveToDue isRun (isWaiting_of_firstDue? found isRun))
    (fun found isRun lone =>
      let waits := isWaiting_of_firstDue? found isRun
      (lone.moveToDue isRun waits).fire isRun waits)
    split lone

theorem foldl_happen_acts (state : Debouncer α) (acts : List (Act α)) :
    (acts.map Event.act).foldl happen state = acts.foldl act state := by
  rw [List.foldl_map]
  rfl

theorem Lone.of_call {call : Call α} {before after : List (Event α)} (lone : Lone state)
    (split : call.events false state = before ++ after) : Lone (before.foldl happen state) := by
  cases call with
  | ask asked =>
    rw [Call.events] at split
    obtain ⟨acts, rest, isSplit, rfl, -⟩ := List.map_eq_append_iff.1 split
    rw [foldl_happen_acts]
    exact lone.of_split (kept_acts state asked) isSplit
  | fail job =>
    rw [Call.events] at split
    cases before with
    | nil => exact lone
    | cons event before =>
      obtain ⟨rfl, none⟩ := List.cons.inj split
      obtain ⟨rfl, -⟩ := List.append_eq_nil_iff.1 none.symm
      exact lone.fail job

/-- Calls that fail leave no timer behind. -/
theorem Lone.of_events {calls : List (Call α)} {before after : List (Event α)} (lone : Lone state)
    (split : state.events false calls = before ++ after) : Lone (before.foldl happen state) := by
  induction calls generalizing state before with
  | nil =>
    obtain ⟨rfl, -⟩ := List.append_eq_nil_iff.1 split.symm
    exact lone
  | cons call calls ih =>
    have whole := lone.of_call (List.append_nil (call.events false state)).symm
    rcases List.append_eq_append_iff.1 split with ⟨more, rfl, isMore⟩ | ⟨rest, isSplit, -⟩
    · rw [List.foldl_append]
      exact ih whole isMore
    · exact lone.of_call isSplit

/-- The pending run is the next one to be executed unless it is reported as cancelled, and no other one is. -/
theorem Sound.impends_iff (sound : Sound state) (lone : Lone state) :
    Impends state number ↔ state.pending = some number ∧ ¬Reports state number := by
  constructor
  · rintro ⟨run, isRun, unfired, uncancelled, -⟩
    have waits : run.isWaiting false = true := by simp [Run.isWaiting, unfired, uncancelled]
    refine ⟨(lone.alone isRun waits).1, ?_⟩
    rintro ⟨same, isSame, isCancelled⟩
    rw [Option.some.inj (isSame.symm.trans isRun), uncancelled] at isCancelled
    cases isCancelled
  · rintro ⟨isPending, unreported⟩
    obtain ⟨run, isRun, isCurrent, unfired⟩ := sound.pending isPending
    have uncancelled : run.cancelled = false := Bool.eq_false_iff.2 fun cancelled => unreported ⟨run, isRun, cancelled⟩
    have waits : run.isWaiting false = true := by simp [Run.isWaiting, unfired, uncancelled]
    exact lone.impends isRun waits isCurrent

end lone

section outcome

/-- No run has the generation. -/
def IsSpent (state : Debouncer α) : Prop :=
  ∀ run ∈ state.runs, run.generation ≠ state.generation

theorem IsSpent.startable? (spent : IsSpent state) (number : Nat) : state.startable? number = none := by
  cases isRun : state.runs[number]? with
  | none => rw [Debouncer.startable?, isRun, Option.bind_none]
  | some run =>
    rw [Debouncer.startable?, isRun, Option.bind_some, if_neg (spent run (List.mem_of_getElem? isRun))]

theorem IsSpent.fire (spent : IsSpent state) (number : Nat) : IsSpent (state.act (.fire number)) := by
  intro run mem
  have same : (state.act (.fire number)).runs.map Run.generation = state.runs.map Run.generation := by
    rw [generations_act]
    exact List.append_nil _
  rw [generation_fire]
  obtain ⟨old, isOld, isSame⟩ := List.mem_map.1 (same ▸ List.mem_map_of_mem (f := Run.generation) mem)
  exact isSame ▸ spent old isOld

/-- Where no run has the generation nothing is executed, even if cancelled timers fire. -/
theorem IsSpent.executions_settling (spent : IsSpent state) (stubborn : Bool) (until_ fuel : Nat) :
    executions state (settling stubborn until_ fuel state) = [] := by
  induction fuel generalizing state with
  | zero => rfl
  | succ fuel ih =>
    rw [settling]
    cases found : firstDue? stubborn until_ state.runs with
    | none => rfl
    | some number =>
      obtain ⟨run, isRun, -⟩ := firstDue?_eq_some found
      have moved : IsSpent (state.moveTo run.due) := spent
      have fires : state.firing number = [.moveTo run.due, .fire number] := by
        rw [firing, isRun, spent.startable? number]
        rfl
      have lands : state.fireAtDue number = (state.moveTo run.due).act (.fire number) := by
        rw [← foldl_firing, fires]
        rfl
      have executed : (state.moveTo run.due).executed? (.fire number) = none := by
        rw [executed?, moved.startable? number]
        rfl
      simp only [fires, lands]
      show ((state.moveTo run.due).executed? (.fire number)).toList ++ _ = []
      rw [executed]
      exact ih (moved.fire number)

/-- Nothing is executed behind a schedule that failed. -/
theorem Sound.isSpent_fail (sound : Sound state) (job : Job α) : IsSpent (state.schedule? false job).2 := by
  rw [schedule?_false]
  intro run mem
  have bound := sound.cancelPending.bounded run mem
  rw [generation_cancelPending] at bound
  exact Nat.ne_of_lt (Nat.lt_succ_of_le bound)

theorem Sound.reports_fail (sound : Sound state) (job : Job α) :
    Reports (state.schedule? false job).2 number ↔ Reports state number ∨ state.pending = some number := by
  rw [schedule?_false]
  constructor
  · exact fun reports => reports_cancelPending reports
  · rintro (already | isPending)
    · exact already.foldl [.cancelPending]
    · obtain ⟨run, isRun, -⟩ := sound.pending isPending
      refine ⟨{ run with cancelled := true }, ?_, rfl⟩
      show state.cancelPending.runs[number]? = _
      rw [Debouncer.cancelPending, isPending]
      exact (runs_cancel state number number).trans (by rw [isRun, Option.map_some, if_pos rfl])

end outcome

/-- What a schedule that fails costs, in a state behind a number of such failures since the last run was scheduled. -/
structure Costs (stubborn : Bool) (failed : Nat) (state : Debouncer α) (job : Job α) : Prop where
  fails : (state.schedule? false job).1 = some .noClock
  /-- The generation is that of the last run exactly if no schedule has failed since. -/
  generation_eq : state.generation = state.lastGeneration + failed
  raised : (state.schedule? false job).2.generation = state.generation + 1
  pending : (state.schedule? false job).2.pending = none
  reports_iff : ∀ number, Reports (state.schedule? false job).2 number ↔
    Reports state number ∨ state.pending = some number
  /-- What would have been executed, on a loop that honours cancellation. -/
  lost : stubborn = false → ∀ number, Impends state number ↔ state.pending = some number ∧ ¬Reports state number
  /-- Nothing is executed any more, on either kind of loop. -/
  still : ∀ loop time, executions (state.schedule? false job).2
    ((Step.advance time).acts loop (state.schedule? false job).2) = []
  /-- All but the generation stays as it was exactly if no run is pending. -/
  kept_iff : (state.schedule? false job).2 = { state with generation := state.generation + 1 } ↔ state.pending = none

theorem costs_of_failure (stubborn : Bool) (delay : Nat) (calls : List (Call α)) {events : List (Event α)}
    (reached : events <+: Debouncer.events stubborn { delay } calls) (job : Job α) :
    Costs stubborn (failures events) (events.foldl happen { delay }) job := by
  have sound : Sound (events.foldl happen { delay }) := (sound_start delay).foldl events
  refine ⟨rfl, generation_foldl rfl events, ?raised, ?pending, fun number => sound.reports_fail job, ?lost, ?still,
    ?kept_iff⟩
  case raised => rw [schedule?_false]
  case pending =>
    rw [schedule?_false]
    exact pending_cancelPending _
  case lost =>
    rintro rfl number
    obtain ⟨after, split⟩ := reached
    exact sound.impends_iff ((lone_start delay).of_events split.symm)
  case still => exact fun loop time => (sound.isSpent_fail job).executions_settling loop _ _
  case kept_iff =>
    rw [schedule?_false]
    constructor
    · intro same
      exact (congrArg Debouncer.pending same).symm.trans (pending_cancelPending _)
    · intro none
      rw [cancelPending_of_none none]

/-- A failure behind an earlier one, while a run is pending that would have been executed. -/
theorem costs_of_failure_pending :
    let calls : List (Call Char) := [.fail (.once 'a'), .ask (.schedule (.once 'b')), .ask (.advance 299)]
    let state := (events false { delay := 300 } calls).foldl happen { delay := 300 }
    events false { delay := 300 } calls <+: events false { delay := 300 } calls ∧
      Costs false 0 state (.once 'c') ∧ state.generation = 2 ∧ Impends state 0 := by
  intro calls state
  have reached := List.prefix_refl (events false { delay := 300 } calls)
  have costs := costs_of_failure false 300 calls reached (.once 'c')
  refine ⟨reached, costs, rfl, (costs.lost rfl 0).2 ⟨rfl, ?_⟩⟩
  rintro ⟨run, isRun, isCancelled⟩
  obtain rfl := Option.some.inj isRun
  cases isCancelled

/-- A schedule that fails leaves the generation, the pending run, all handles and what will be executed. -/
structure IsHarmless (state : Debouncer α) (job : Job α) : Prop where
  generation : (state.schedule? false job).2.generation = state.generation
  pending : (state.schedule? false job).2.pending = state.pending
  reports_iff : ∀ number, Reports (state.schedule? false job).2 number ↔ Reports state number
  impends_iff : ∀ number, Impends (state.schedule? false job).2 number ↔ Impends state number

/-- The generation is raised by the very first schedule, and with a run that is pending everything else changes too. -/
theorem not_isHarmless_of_failure :
    ¬IsHarmless ({ delay := 300 } : Debouncer Char) (.once 'a') ∧
      let state := (run false { delay := 300 } [.schedule (.once 'a')] : Debouncer Char)
      ¬IsHarmless state (.once 'b') ∧ (state.schedule? false (.once 'b')).2.pending ≠ state.pending ∧
        Reports (state.schedule? false (.once 'b')).2 0 ∧ ¬Reports state 0 := by
  refine ⟨fun harmless => ?_, fun harmless => ?_, ?_, ⟨_, rfl, rfl⟩, ?_⟩
  · exact absurd harmless.generation (by decide)
  · exact absurd harmless.generation (by decide)
  · decide
  · rintro ⟨run, isRun, isCancelled⟩
    obtain rfl := Option.some.inj isRun
    cases isCancelled

end Flowchart.Debouncer
