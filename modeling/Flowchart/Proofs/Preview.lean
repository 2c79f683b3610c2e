import Flowchart.Preview
import Flowchart.Proofs.Debounce.Generations
import Flowchart.Proofs.Debounce.Single

/-!
What a preview shows of the edits of a source. Each edit whose time comes is shown once, in order, and counted; an edit
whose time does not come, because another one or the end of the preview came first, never is.
-/
namespace Flowchart.Preview

open Debouncer (Execution executions Orderly Awaits Rests)

/-- What is asked of a preview. An edit is cancelled by its number. -/
inductive Step where
  | update (source : String)
  | advance (time : Nat)
  | cancel (number : Nat)
  | close

namespace Step

/-- What the step is for the edits. -/
def edit : Step → Debouncer.Step String
  | update source => .schedule (.once source)
  | advance time => .advance time
  | cancel number => .cancel number
  | close => .cancelPending

/-- The source that is edited. -/
def source? : Step → Option String
  | update source => some source
  | _ => none

/-- How much time passes. -/
def time : Step → Nat
  | advance time => time
  | _ => 0

/-- Whether an edit that waits is given up for the step. -/
def Disturbs (number : Nat) : Step → Prop
  | update _ | close => True
  | cancel cancelled => cancelled = number
  | advance _ => False

end Step

def step (preview : Preview) : Step → Preview
  | .update source => preview.update source
  | .advance time => preview.advance time
  | .cancel number => preview.cancel number
  | .close => preview.close

def run (preview : Preview) (steps : List Step) : Preview :=
  steps.foldl step preview

/-- The sources of the edits, in order. An edit has the number of its place. -/
def sources (steps : List Step) : List String :=
  steps.filterMap Step.source?

/-- How much time passes in some steps. -/
def elapsed : List Step → Nat
  | [] => 0
  | step :: steps => step.time + elapsed steps

/-- A delay passes, and the clock comes to its end, before anything disturbs an edit. -/
def Passes (number delay : Nat) (steps : List Step) : Prop :=
  ∃ quiet time rest, steps = quiet ++ .advance time :: rest ∧ (∀ step ∈ quiet, ¬step.Disturbs number) ∧
    delay ≤ elapsed quiet + time

/-- The edits that are executed in some steps, in order. -/
def executed (edits : Debouncer String) (steps : List Step) : List (Execution String) :=
  executions edits (edits.history false (steps.map Step.edit))

section passing

variable {number delay : Nat} {step : Step} {steps : List Step}

theorem not_passes_nil : ¬Passes number delay [] := by
  rintro ⟨quiet, time, rest, split, -, -⟩
  cases quiet <;> cases split

theorem passes_cons : Passes number delay (step :: steps) ↔
    (∃ time, step = .advance time ∧ delay ≤ time) ∨
      ¬step.Disturbs number ∧ Passes number (delay - step.time) steps := by
  constructor
  · rintro ⟨_ | ⟨first, quiet⟩, time, rest, split, undisturbed, enough⟩
    · cases split
      exact .inl ⟨time, rfl, by simpa [elapsed] using enough⟩
    · cases split
      obtain ⟨here, later⟩ := List.forall_mem_cons.1 undisturbed
      rw [elapsed] at enough
      exact .inr ⟨here, quiet, time, rest, rfl, later, by omega⟩
  · rintro (⟨time, rfl, enough⟩ | ⟨here, quiet, time, rest, rfl, later, enough⟩)
    · exact ⟨[], time, steps, rfl, List.forall_mem_nil _, by simpa [elapsed] using enough⟩
    · refine ⟨step :: quiet, time, rest, rfl, List.forall_mem_cons.2 ⟨here, later⟩, ?_⟩
      rw [elapsed]
      omega

/-- What disturbs an edit in time keeps its delay from passing. -/
theorem not_passes_of_disturbs {between after : List Step} (early : ¬Passes number delay between)
    (disturbs : step.Disturbs number) : ¬Passes number delay (between ++ step :: after) := by
  induction between generalizing delay with
  | nil =>
    intro passes
    rcases passes_cons.1 passes with ⟨time, rfl, -⟩ | ⟨undisturbed, -⟩
    · exact disturbs
    · exact undisturbed disturbs
  | cons first between ih =>
    intro passes
    apply early
    rcases passes_cons.1 passes with now | ⟨undisturbed, later⟩
    · exact passes_cons.2 (.inl now)
    · refine passes_cons.2 (.inr ⟨undisturbed, ?_⟩)
      exact Classical.byContradiction fun notYet => ih notYet later

end passing

section edits

variable {edits : Debouncer String} {number due : Nat} {source : String} {known : List String}

theorem executed_cons (edits : Debouncer String) (step : Step) (steps : List Step) :
    executed edits (step :: steps) = executions edits (step.edit.acts false edits) ++
      executed (edits.step false step.edit) steps := by
  rw [executed, List.map_cons, Debouncer.history, Debouncer.executions_append, Debouncer.foldl_acts]
  rfl

theorem executed_append (edits : Debouncer String) (front back : List Step) :
    executed edits (front ++ back) =
      executed edits front ++ executed (edits.run false (front.map Step.edit)) back := by
  induction front generalizing edits with
  | nil => rfl
  | cons step front ih =>
    rw [List.cons_append, executed_cons, ih, executed_cons, List.append_assoc]
    rfl

/-- The edits so far, none of which waits but perhaps the last one. -/
structure Edited (edits : Debouncer String) (known : List String) : Prop where
  jobs : edits.runs.map Run.job = known.map .once
  single : (∃ number due source, Awaits edits number due source) ∨ Rests edits

theorem Edited.orderly (edited : Edited edits known) : Orderly edits := by
  rcases edited.single with ⟨number, due, source, awaits⟩ | rests
  · exact awaits.orderly
  · exact rests.orderly

theorem Edited.length_runs (edited : Edited edits known) : edits.runs.length = known.length := by
  simpa using congrArg List.length edited.jobs

theorem Edited.source_eq (edited : Edited edits known) (awaits : Awaits edits number due source) :
    known[number]? = some source := by
  obtain ⟨run, isRun, -, -, isJob⟩ := awaits.waits
  have isOnce := congrArg (·[number]?) edited.jobs
  simp only [List.getElem?_map, isRun, Option.map_some, isJob] at isOnce
  obtain ⟨same, isSource, isAction⟩ := Option.map_eq_some_iff.1 isOnce.symm
  rw [isSource, ← show same = source from (Job.mk.inj isAction).1]

/-- While time passes, the clock moves and the edit that waits is executed if it is time. -/
theorem Edited.acts_advance (edited : Edited edits known) (time : Nat) :
    (Debouncer.Step.advance time).acts false edits = [.moveTo (edits.now + time)] ∨
      ∃ number due source, Awaits edits number due source ∧ due ≤ edits.now + time ∧
        (Debouncer.Step.advance time).acts false edits =
          [.moveTo due, .fire number, .moveTo (edits.now + time)] := by
  rcases edited.single with ⟨number, due, source, awaits⟩ | rests
  · by_cases late : due ≤ edits.now + time
    · exact .inr ⟨number, due, source, awaits, late, awaits.acts_late late⟩
    · exact .inl (awaits.acts_early (Nat.lt_of_not_le late))
  · exact .inl (rests.acts_advance time)

theorem Edited.advance (edited : Edited edits known) (time : Nat) :
    ((∃ number due source, Awaits (edits.advance false time) number due source) ∨ Rests (edits.advance false time)) ∧
      (edits.advance false time).now = edits.now + time := by
  rcases edited.single with ⟨number, due, source, awaits⟩ | rests
  · by_cases late : due ≤ edits.now + time
    · exact ⟨.inr (awaits.advance_late late).1, (awaits.advance_late late).2⟩
    · obtain ⟨still, now⟩ := awaits.advance_early (Nat.lt_of_not_le late)
      exact ⟨.inl ⟨number, due, source, still⟩, now⟩
  · exact ⟨.inr (rests.advance time).1, (rests.advance time).2⟩

theorem Edited.now_step (edited : Edited edits known) (step : Step) :
    (edits.step false step.edit).now = edits.now + step.time := by
  cases step with
  | update source => exact Debouncer.now_schedule edits (.once source)
  | advance time => exact (edited.advance time).2
  | cancel number => rfl
  | close => exact Debouncer.now_cancelPending edits

theorem Edited.jobs_step (edited : Edited edits known) (step : Step) :
    (edits.step false step.edit).runs.map Run.job = (known ++ step.source?.toList).map .once := by
  have jobs := Debouncer.jobs_foldl edits (step.edit.acts false edits)
  rw [Debouncer.foldl_acts, edited.jobs] at jobs
  rw [jobs, List.map_append]
  refine congrArg _ ?_
  cases step with
  | advance time => rcases edited.acts_advance time with acts | ⟨_, _, _, -, -, acts⟩ <;> rw [Step.edit, acts] <;> rfl
  | _ => rfl

theorem Edited.step (edited : Edited edits known) (step : Step) :
    Edited (edits.step false step.edit) (known ++ step.source?.toList) where
  jobs := edited.jobs_step step
  single := by
    cases step with
    | update source => exact .inl ⟨_, _, source, Debouncer.awaits_schedule edited.orderly source⟩
    | advance time => exact (edited.advance time).1
    | cancel cancelled =>
      rcases edited.single with ⟨number, due, source, awaits⟩ | rests
      · by_cases same : cancelled = number
        · subst same
          exact .inr awaits.cancel_self
        · exact .inl ⟨number, due, source, awaits.cancel same⟩
      · exact .inr (rests.cancel cancelled)
    | close => exact .inr (Debouncer.rests_cancelPending edited.orderly)

theorem sources_cons (step : Step) (steps : List Step) :
    sources (step :: steps) = step.source?.toList ++ sources steps := by
  rw [sources, List.filterMap_cons]
  cases step.source? <;> rfl

/-- The edits and the clock after some steps. -/
theorem Edited.run (edited : Edited edits known) (steps : List Step) :
    Edited (edits.run false (steps.map Step.edit)) (known ++ sources steps) ∧
      (edits.run false (steps.map Step.edit)).now = edits.now + elapsed steps := by
  induction steps generalizing edits known with
  | nil => exact ⟨(List.append_nil known).symm ▸ edited, rfl⟩
  | cons step steps ih =>
    obtain ⟨inOrder, now⟩ := ih (edited.step step)
    rw [List.append_assoc, ← sources_cons] at inOrder
    refine ⟨inOrder, ?_⟩
    rw [elapsed, ← Nat.add_assoc, ← edited.now_step]
    exact now

/-- What is executed is one of the edits. -/
theorem Edited.action_eq (edited : Edited edits known) (steps : List Step) :
    ∀ execution ∈ executed edits steps, (known ++ sources steps)[execution.number]? = some execution.action := by
  induction steps generalizing edits known with
  | nil => exact List.forall_mem_nil _
  | cons step steps ih =>
    rw [executed_cons, sources_cons, ← List.append_assoc]
    refine List.forall_mem_append.2 ⟨fun execution now => ?_, ih (edited.step step)⟩
    cases step with
    | advance time =>
      rcases edited.acts_advance time with acts | ⟨number, due, source, awaits, -, acts⟩
      · rw [Step.edit, acts] at now
        cases now
      · rw [Step.edit, acts, awaits.executions_late, List.mem_singleton] at now
        obtain rfl := now
        have isSource := edited.source_eq awaits
        rw [List.append_assoc, List.getElem?_append_left (List.getElem?_eq_some_iff.1 isSource).1, isSource]
    | update => cases now
    | cancel => cases now
    | close => cases now

theorem orderly_step (orderly : Orderly edits) (step : Debouncer.Step String) : Orderly (edits.step false step) := by
  rw [← Debouncer.foldl_acts]
  exact orderly.foldl (Debouncer.kept_acts edits step)

/-- A settled edit is not executed any more. -/
theorem not_executed_of_settled (orderly : Orderly edits) (settled : edits.IsSettled number) (steps : List Step) :
    (executed edits steps).filter (·.number = number) = [] :=
  Debouncer.not_executed_of_settled orderly (Debouncer.kept_history edits _) settled

theorem lt_length_advance (awaits : Awaits edits number due source) (time : Nat) :
    number < (edits.advance false time).runs.length := by
  rw [show edits.advance false time = _ from (Debouncer.foldl_acts false edits (.advance time)).symm]
  exact Nat.lt_of_lt_of_le awaits.lt_length (Debouncer.length_le_foldl edits _)

/-- What disturbs an edit executes nothing and settles it. -/
theorem disturbed_of_awaits (awaits : Awaits edits number due source) {step : Step} (disturbs : step.Disturbs number) :
    executions edits (step.edit.acts false edits) = [] ∧ (edits.step false step.edit).IsSettled number := by
  cases step with
  | update other =>
    have settles : Debouncer.Disturbs number (.schedule (.once other)) := trivial
    exact ⟨rfl, Debouncer.settled_of_disturbs awaits.orderly awaits.lt_length settles⟩
  | close =>
    have settles : Debouncer.Disturbs (α := String) number .cancelPending := trivial
    exact ⟨rfl, Debouncer.settled_of_disturbs awaits.orderly awaits.lt_length settles⟩
  | cancel cancelled =>
    have settles : Debouncer.Disturbs (α := String) number (.cancel cancelled) := disturbs
    exact ⟨rfl, Debouncer.settled_of_disturbs awaits.orderly awaits.lt_length settles⟩
  | advance => exact disturbs.elim

/-- What disturbs an edit that waits keeps it from being executed. -/
theorem not_executed_of_disturbs (awaits : Awaits edits number due source) {step : Step}
    (disturbs : step.Disturbs number) (steps : List Step) :
    (executed edits (step :: steps)).filter (·.number = number) = [] := by
  obtain ⟨none, settled⟩ := disturbed_of_awaits awaits disturbs
  rw [executed_cons, none, List.nil_append]
  exact not_executed_of_settled (orderly_step awaits.orderly _) settled steps

/-- An edit whose time comes is executed, and not again. -/
theorem executed_of_late (awaits : Awaits edits number due source) {time : Nat} (late : due ≤ edits.now + time)
    (steps : List Step) :
    (executed edits (.advance time :: steps)).filter (·.number = number) = [⟨number, due, source⟩] := by
  obtain ⟨rests, -⟩ := awaits.advance_late late
  have settled := rests.isSettled (lt_length_advance awaits time)
  have behind := not_executed_of_settled rests.orderly settled steps
  rw [executed_cons, List.filter_append, Step.edit, awaits.acts_late late, awaits.executions_late,
    show edits.step false (.advance time) = edits.advance false time from rfl, behind]
  simp

/-- The delay of an edit goes on before its time comes. -/
theorem passes_advance_iff (awaits : Awaits edits number due source) {time : Nat} (early : edits.now + time < due)
    (steps : List Step) : Passes number (due - edits.now) (.advance time :: steps) ↔
      Passes number (due - (edits.advance false time).now) steps := by
  rw [passes_cons, (awaits.advance_early early).2, Nat.sub_add_eq]
  constructor
  · rintro (⟨_, ⟨⟩, enough⟩ | ⟨-, passes⟩)
    · omega
    · exact passes
  · exact fun passes => .inr ⟨id, passes⟩

/-- The fate of an edit that waits: it is executed once, when its delay has passed, or not at all. -/
theorem fate_of_awaits (awaits : Awaits edits number due source) (steps : List Step) :
    Passes number (due - edits.now) steps ∧
        (executed edits steps).filter (·.number = number) = [⟨number, due, source⟩] ∨
      ¬Passes number (due - edits.now) steps ∧ (executed edits steps).filter (·.number = number) = [] := by
  induction steps generalizing edits with
  | nil => exact .inr ⟨not_passes_nil, rfl⟩
  | cons step steps ih =>
    by_cases disturbs : step.Disturbs number
    · have early : ¬Passes number (due - edits.now) ([] ++ step :: steps) :=
        not_passes_of_disturbs not_passes_nil disturbs
      exact .inr ⟨early, not_executed_of_disturbs awaits disturbs steps⟩
    cases step with
    | update => exact absurd trivial disturbs
    | close => exact absurd trivial disturbs
    | cancel cancelled =>
      have same : Passes number (due - edits.now) (.cancel cancelled :: steps) ↔
          Passes number (due - edits.now) steps := by
        rw [passes_cons]
        simp [disturbs, Step.time]
      rw [same, executed_cons]
      exact ih (awaits.cancel disturbs)
    | advance time =>
      rcases Nat.lt_or_ge (edits.now + time) due with early | late
      · rw [passes_advance_iff awaits early, executed_cons, Step.edit, awaits.acts_early early]
        exact ih (awaits.advance_early early).1
      · exact .inl ⟨passes_cons.2 (.inl ⟨time, rfl, by omega⟩), executed_of_late awaits late steps⟩

/-- An edit that nothing disturbs is the only one that is executed behind it. -/
theorem executed_undisturbed (awaits : Awaits edits number due source) (edited : Edited edits known)
    {steps : List Step} (undisturbed : ∀ step ∈ steps, ¬step.Disturbs number)
    (passes : Passes number (due - edits.now) steps) : executed edits steps = [⟨number, due, source⟩] := by
  rcases fate_of_awaits awaits steps with ⟨-, once⟩ | ⟨fails, -⟩
  · rw [← once]
    refine (List.filter_eq_self.2 fun execution mem => ?_).symm
    have noSources : sources steps = [] := by
      refine List.filterMap_eq_nil_iff.2 fun step isStep => ?_
      cases step with
      | update => exact absurd trivial (undisturbed _ isStep)
      | _ => rfl
    have isSource := edited.action_eq steps execution mem
    rw [noSources, List.append_nil] at isSource
    have inRange := (List.getElem?_eq_some_iff.1 isSource).1
    obtain ⟨run, isRun, waits, -⟩ := awaits.waits
    have isLast := (awaits.orderly.alone isRun waits).2.1
    rw [edited.length_runs] at isLast
    -- An earlier edit is settled, and there is no later one.
    have notEarlier : ¬execution.number < number := fun earlier => by
      have none := not_executed_of_settled awaits.orderly (awaits.isSettled earlier) steps
      exact List.filter_eq_nil_iff.1 none execution mem (by simp)
    simp only [decide_eq_true_eq]
    omega
  · exact absurd passes fails

/-- Where no edit waits, only later ones are executed. -/
theorem length_le_of_rests (rests : Rests edits) (steps : List Step) :
    ∀ execution ∈ executed edits steps, edits.runs.length ≤ execution.number := by
  intro execution mem
  refine Nat.le_of_not_lt fun known => ?_
  have none := not_executed_of_settled rests.orderly (rests.isSettled known) steps
  exact List.filter_eq_nil_iff.1 none execution mem (by simp)

theorem Edited.ascending (edited : Edited edits known) (steps : List Step) :
    (executed edits steps).Pairwise fun first later => first.number < later.number := by
  induction steps generalizing edits known with
  | nil => exact .nil
  | cons step steps ih =>
    have later := ih (edited.step step)
    rw [executed_cons]
    cases step with
    | advance time =>
      rcases edited.acts_advance time with acts | ⟨number, due, source, awaits, late, acts⟩
      · rw [Step.edit, acts]
        exact later
      · rw [Step.edit, acts, awaits.executions_late, List.singleton_append]
        refine .cons (fun execution mem => ?_) later
        have isLater := length_le_of_rests (awaits.advance_late late).1 steps execution mem
        exact Nat.lt_of_lt_of_le (lt_length_advance awaits time) isLater
    | update => exact later
    | cancel => exact later
    | close => exact later

end edits

section showing

variable {preview : Preview} {calls : List (Nat × String)}

theorem foldl_present (preview : Preview) (calls : List (Nat × String)) :
    (calls.foldl present preview).edits = preview.edits ∧
      (calls.foldl present preview).settings = preview.settings ∧
      (calls.foldl present preview).renderer = preview.renderer := by
  induction calls generalizing preview with
  | nil => exact ⟨rfl, rfl, rfl⟩
  | cons call calls ih => exact ih (preview.present call)

theorem show?_congr {other : Preview} (settings : other.settings = preview.settings)
    (renderer : other.renderer = preview.renderer) : other.show? = preview.show? := by
  funext source
  rw [show?, show?, settings, renderer]

theorem shown_foldl_present (preview : Preview) (calls : List (Nat × String)) :
    (calls.foldl present preview).shown = preview.shown ++ calls.map fun call => (call.1, preview.show? call.2) := by
  induction calls generalizing preview with
  | nil => exact (List.append_nil _).symm
  | cons call calls ih =>
    rw [List.foldl_cons, ih, List.map_cons, present, List.append_assoc]
    rfl

/-- The count and the last thing shown are those of all that was shown. -/
structure Tallied (preview : Preview) : Prop where
  count : preview.count = preview.shown.length
  latest : preview.latest = preview.shown.getLast?.bind Prod.snd

theorem tallied_start (settings : Settings) (renderer : Renderer) : Tallied (start settings renderer) where
  count := rfl
  latest := rfl

theorem Tallied.present (tallied : Tallied preview) (call : Nat × String) : Tallied (preview.present call) where
  count := by
    rw [Preview.present, List.length_append, ← tallied.count]
    rfl
  latest := by
    rw [Preview.present, List.getLast?_concat]
    rfl

theorem Tallied.foldl (tallied : Tallied preview) (calls : List (Nat × String)) :
    Tallied (calls.foldl Preview.present preview) := by
  induction calls generalizing preview with
  | nil => exact tallied
  | cons call calls ih => exact ih (tallied.present call)

theorem Tallied.step (tallied : Tallied preview) (step : Step) : Tallied (preview.step step) := by
  cases step with
  | advance time =>
    have moved : Tallied { preview with edits := preview.edits.advance false time } := ⟨tallied.count, tallied.latest⟩
    exact moved.foldl _
  | _ => exact ⟨tallied.count, tallied.latest⟩

theorem Tallied.run (tallied : Tallied preview) (steps : List Step) : Tallied (preview.run steps) := by
  induction steps generalizing preview with
  | nil => exact tallied
  | cons step steps ih => exact ih (tallied.step step)

theorem parts_step (preview : Preview) (step : Step) :
    (preview.step step).edits = preview.edits.step false step.edit ∧
      (preview.step step).settings = preview.settings ∧ (preview.step step).renderer = preview.renderer := by
  cases step with
  | advance time => exact foldl_present _ _
  | _ => exact ⟨rfl, rfl, rfl⟩

/-- What is executed in a step is shown. -/
theorem shown_step (preview : Preview) (step : Step) :
    (preview.step step).shown = preview.shown ++
      (executions preview.edits (step.edit.acts false preview.edits)).map
        fun execution => (execution.time, preview.show? execution.action) := by
  cases step with
  | advance time =>
    show (List.foldl present _ _).shown = _
    rw [shown_foldl_present, Debouncer.calls_advance, List.drop_left, List.map_map]
    rfl
  | _ => exact (List.append_nil _).symm

/-- Where all that was shown is counted, what is executed is what was shown since. -/
theorem shownSince_advance (tallied : Tallied preview) (time : Nat) :
    (preview.advance time).shownSince preview.count =
      (executions preview.edits ((Debouncer.Step.advance time).acts false preview.edits)).map
        fun execution => (execution.time, preview.show? execution.action) := by
  rw [shownSince, tallied.count, show (preview.advance time).shown = _ from preview.shown_step (.advance time),
    List.drop_left]
  rfl

theorem shown_run (preview : Preview) (steps : List Step) :
    (preview.run steps).shown = preview.shown ++
      (executed preview.edits steps).map fun execution => (execution.time, preview.show? execution.action) := by
  induction steps generalizing preview with
  | nil => exact (List.append_nil _).symm
  | cons step steps ih =>
    obtain ⟨sameEdits, sameSettings, sameRenderer⟩ := preview.parts_step step
    rw [executed_cons, List.map_append, ← List.append_assoc, ← shown_step, ← sameEdits,
      ← show?_congr sameSettings sameRenderer]
    exact ih (preview.step step)

end showing

/-- What a source is shown as. -/
def shownAs? (settings : Settings) (renderer : Renderer) (source : String) : Option Rendering :=
  if Text.isBlankText source then none else some (Rendering.draw source settings renderer)

/-- How a preview reflects the edits in some steps, of which those in `done` were executed. -/
structure Reflects (settings : Settings) (renderer : Renderer) (steps : List Step) (preview : Preview)
    (done : List (Execution String)) : Prop where
  counted : preview.count = preview.shown.length
  shown : preview.shown = done.map fun execution => (execution.time, shownAs? settings renderer execution.action)
  latest : preview.latest = preview.shown.getLast?.bind Prod.snd
  edits : ∀ execution ∈ done, (sources steps)[execution.number]? = some execution.action
  ascending : done.Pairwise fun first later => first.number < later.number
  /-- An edit is executed if and only if its delay passes before it is disturbed, and then once and in time. -/
  exact : ∀ before source after, steps = before ++ .update source :: after →
    ((∃ execution ∈ done, execution.number = (sources before).length) ↔
        Passes (sources before).length settings.debounceMs after) ∧
      (Passes (sources before).length settings.debounceMs after →
        done.filter (·.number = (sources before).length) =
          [⟨(sources before).length, elapsed before + settings.debounceMs, source⟩])
  /-- An edit that is not disturbed at all is what is shown once its delay has passed. -/
  reflected : ∀ before source after, steps = before ++ .update source :: after →
    (∀ step ∈ after, ¬step.Disturbs (sources before).length) →
    Passes (sources before).length settings.debounceMs after →
    preview.latest = shownAs? settings renderer source
  /-- An edit that is disturbed before its delay has passed is never executed. -/
  superseded : ∀ before source between step after, steps = before ++ .update source :: (between ++ step :: after) →
    ¬Passes (sources before).length settings.debounceMs between → step.Disturbs (sources before).length →
    ∀ execution ∈ done, execution.number ≠ (sources before).length

/-- What is executed behind an edit, and in front of it. -/
theorem executed_update (settings : Settings) (renderer : Renderer) (before : List Step) (source : String)
    (after : List Step) :
    ∃ edits : Debouncer String, Edited edits (sources before ++ [source]) ∧
      Awaits edits (sources before).length (elapsed before + settings.debounceMs) source ∧
      edits.now = elapsed before ∧
      executed (start settings renderer).edits (before ++ .update source :: after) =
        executed (start settings renderer).edits before ++ executed edits after := by
  have fresh : Edited (start settings renderer).edits [] := ⟨rfl, .inr (Debouncer.rests_start _)⟩
  obtain ⟨edited, now⟩ := fresh.run before
  rw [List.nil_append] at edited
  have delay : ((start settings renderer).edits.run false (before.map Step.edit)).delay = settings.debounceMs :=
    Debouncer.delay_run _ _
  have isNow : ((start settings renderer).edits.run false (before.map Step.edit)).now = elapsed before :=
    now.trans (Nat.zero_add _)
  refine ⟨_, edited.step (.update source), ?_, (edited.now_step (.update source)).trans isNow, ?_⟩
  · rw [← edited.length_runs, ← isNow, ← delay]
    exact Debouncer.awaits_schedule edited.orderly source
  · rw [executed_append, executed_cons]
    rfl

/-- An edit is executed once or never, which depends on what follows. -/
theorem executed_iff_passes (settings : Settings) (renderer : Renderer) (before : List Step) (source : String)
    (after : List Step) :
    let done := executed (start settings renderer).edits (before ++ .update source :: after)
    ((∃ execution ∈ done, execution.number = (sources before).length) ↔
        Passes (sources before).length settings.debounceMs after) ∧
      (Passes (sources before).length settings.debounceMs after →
        done.filter (·.number = (sources before).length) =
          [⟨(sources before).length, elapsed before + settings.debounceMs, source⟩]) := by
  intro done
  obtain ⟨edits, edited, awaits, isNow, isExecuted⟩ := executed_update settings renderer before source after
  have fresh : Edited (start settings renderer).edits [] := ⟨rfl, .inr (Debouncer.rests_start _)⟩
  have notYet : (executed (start settings renderer).edits before).filter (·.number = (sources before).length) = [] := by
    refine List.filter_eq_nil_iff.2 fun execution mem => ?_
    have isSource := fresh.action_eq before execution mem
    have inRange := (List.getElem?_eq_some_iff.1 isSource).1
    rw [List.nil_append] at inRange
    simp only [decide_eq_true_eq]
    omega
  have onlyLater : done.filter (·.number = (sources before).length) =
      (executed edits after).filter (·.number = (sources before).length) := by
    rw [show done = _ from isExecuted, List.filter_append, notYet, List.nil_append]
  have mem_iff : (∃ execution ∈ done, execution.number = (sources before).length) ↔
      done.filter (·.number = (sources before).length) ≠ [] := by
    simp [List.filter_eq_nil_iff]
  have fate := fate_of_awaits awaits after
  rw [isNow, Nat.add_sub_cancel_left, ← onlyLater] at fate
  rcases fate with ⟨passes, once⟩ | ⟨fails, never⟩
  · exact ⟨⟨fun _ => passes, fun _ => mem_iff.2 (once ▸ List.cons_ne_nil _ _)⟩, fun _ => once⟩
  · exact ⟨⟨fun isDone => absurd never (mem_iff.1 isDone), fun passes => absurd passes fails⟩,
      fun passes => absurd passes fails⟩

theorem reflects_run (settings : Settings) (renderer : Renderer) (steps : List Step) :
    Reflects settings renderer steps ((start settings renderer).run steps)
      (executed (start settings renderer).edits steps) := by
  have tallied := (tallied_start settings renderer).run steps
  have fresh : Edited (start settings renderer).edits [] := ⟨rfl, .inr (Debouncer.rests_start _)⟩
  have shown : ((start settings renderer).run steps).shown = (executed (start settings renderer).edits steps).map
      fun execution => (execution.time, shownAs? settings renderer execution.action) :=
    shown_run (start settings renderer) steps
  refine ⟨tallied.count, shown, tallied.latest, ?edits, fresh.ascending steps, ?exact, ?reflected, ?superseded⟩
  case edits => simpa using fresh.action_eq steps
  case exact =>
    intro before source after split
    rw [split]
    exact executed_iff_passes settings renderer before source after
  case reflected =>
    intro before source after split undisturbed passes
    obtain ⟨edits, edited, awaits, isNow, isExecuted⟩ := executed_update settings renderer before source after
    have only := executed_undisturbed awaits edited undisturbed (by rwa [isNow, Nat.add_sub_cancel_left])
    rw [tallied.latest, shown, split, isExecuted, only, List.map_append, List.map_singleton, List.getLast?_concat]
    rfl
  case superseded =>
    intro before source between step after split early disturbs execution mem isNumber
    rw [split] at mem
    have passes := (executed_iff_passes settings renderer before source _).1.1 ⟨execution, mem, isNumber⟩
    exact not_passes_of_disturbs early disturbs passes

end Flowchart.Preview
