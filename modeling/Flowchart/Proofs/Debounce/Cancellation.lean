import Flowchart.Proofs.Debounce.Generations

/-!
Cancelled runs and executed ones. A handle reports its run as cancelled once it was asked to cancel it, also when the
job is done already, and a timer that fires all the same asks the generation and not the handle. So a run is both
executed and reported as cancelled in exactly two ways: its handle is cancelled afterwards, or its timer fires in spite
of the cancellation while no later run was scheduled.
-/
namespace Flowchart.Debouncer

variable {α : Type} {state : Debouncer α} {acts before after : List (Act α)} {number : Nat} {stubborn : Bool}

/-- The job of a run is done while things happen. -/
def Executes (state : Debouncer α) (acts : List (Act α)) (number : Nat) : Prop :=
  ∃ execution ∈ executions state acts, execution.number = number

/-- A run has a mark, such as that of its cancellation. -/
def Marked (mark : Run α → Bool) (state : Debouncer α) (number : Nat) : Prop :=
  ∃ run, state.runs[number]? = some run ∧ mark run = true

section marks

variable {mark : Run α → Bool}

theorem Marked.modify (marked : Marked mark state number) {change : Run α → Run α}
    (keeps : ∀ run, mark run = true → mark (change run) = true) {later : Debouncer α} {changed : Nat}
    (isChange : later.runs = state.runs.modify changed change) : Marked mark later number := by
  obtain ⟨run, isRun, isMarked⟩ := marked
  refine ⟨if changed = number then change run else run, ?_, ?_⟩
  · rw [isChange, List.getElem?_modify, isRun]
    rfl
  · split
    · exact keeps run isMarked
    · exact isMarked

/-- A run that has a mark had it before the change of a run, unless the change is what marks it. -/
theorem Marked.of_modify {later : Debouncer α} {change : Run α → Run α} {changed : Nat}
    (marked : Marked mark later number) (isChange : later.runs = state.runs.modify changed change)
    (blind : changed = number → ∀ run, mark (change run) = true → mark run = true) : Marked mark state number := by
  obtain ⟨run, isRun, isMarked⟩ := marked
  rw [isChange, List.getElem?_modify] at isRun
  obtain ⟨old, wasRun, rfl⟩ := Option.map_eq_some_iff.1 isRun
  refine ⟨old, wasRun, ?_⟩
  split at isMarked
  · exact blind ‹_› old isMarked
  · exact isMarked

/-- A mark that neither a cancellation nor a timer takes away stays. -/
theorem Marked.act (marked : Marked mark state number)
    (cancelled : ∀ run : Run α, mark run = true → mark { run with cancelled := true } = true)
    (fired : ∀ run : Run α, mark run = true → mark { run with fired := true } = true) (act : Act α) :
    Marked mark (state.act act) number := by
  have ofPending : Marked mark state.cancelPending number := by
    cases isPending : state.pending with
    | none =>
      rw [cancelPending, isPending]
      exact marked
    | some pending =>
      rw [cancelPending, isPending]
      exact marked.modify cancelled rfl
  cases act with
  | schedule job =>
    obtain ⟨run, isRun, isMarked⟩ := ofPending
    refine ⟨run, ?_, isMarked⟩
    rw [Debouncer.act, runs_schedule, List.getElem?_append_left (List.getElem?_eq_some_iff.1 isRun).1, isRun]
  | cancelPending => exact ofPending
  | cancel => exact marked.modify cancelled rfl
  | moveTo => exact marked
  | fire fired => exact marked.modify ‹_› (runs_fire state fired)

end marks

/-- The handle of a run reports it as cancelled. -/
def Reports (state : Debouncer α) (number : Nat) : Prop :=
  Marked Run.cancelled state number

/-- The timer of a run has fired. -/
def HasFired (state : Debouncer α) (number : Nat) : Prop :=
  Marked Run.fired state number

theorem Reports.foldl (reports : Reports state number) (acts : List (Act α)) :
    Reports (acts.foldl Debouncer.act state) number :=
  related_foldl (fun first later => Reports first number → Reports later number) (fun _ => id)
    (fun first later => later ∘ first) (fun _ act marked => marked.act (fun _ _ => rfl) (fun _ => id) act) state acts
    reports

theorem HasFired.foldl (hasFired : HasFired state number) (acts : List (Act α)) :
    HasFired (acts.foldl Debouncer.act state) number :=
  related_foldl (fun first later => HasFired first number → HasFired later number) (fun _ => id)
    (fun first later => later ∘ first) (fun _ act marked => marked.act (fun _ => id) (fun _ _ => rfl) act) state acts
    hasFired

section executes

theorem executes_append {front back : List (Act α)} : Executes state (front ++ back) number ↔
    Executes state front number ∨ Executes (front.foldl Debouncer.act state) back number := by
  simp only [Executes, executions_append, List.mem_append, or_and_right, exists_or]

/-- The timer of the last run starts its job. -/
theorem Numbered.startable (numbered : Numbered state) (isLast : number + 1 = state.runs.length) :
    ∃ job, state.startable? number = some job := by
  have known : number < state.runs.length := by omega
  have isGeneration := numbered.generation?_eq known
  obtain ⟨run, isRun, isNumber⟩ := Option.map_eq_some_iff.1 isGeneration
  have current : run.generation = state.generation := by
    rw [isNumber, isLast, numbered.generation_eq]
  exact ⟨run.job, by rw [startable?, isRun, Option.bind_some, if_pos current]⟩

/-- A run is executed when its timer fires while no later one was scheduled, and never else. -/
theorem executes_iff (numbered : Numbered state) : Executes state acts number ↔ ∃ before after,
    acts = before ++ .fire number :: after ∧ number + 1 = (before.foldl Debouncer.act state).runs.length := by
  constructor
  · rintro ⟨execution, mem, rfl⟩
    induction acts generalizing state with
    | nil => cases mem
    | cons act acts ih =>
      rcases List.mem_append.1 mem with here | later
      · obtain ⟨rfl, isLast⟩ := numbered.last_of_executed (Option.mem_toList.1 here)
        exact ⟨[], acts, rfl, isLast⟩
      · obtain ⟨before, after, rfl, isLast⟩ := ih (numbered.act act) later
        exact ⟨act :: before, after, rfl, isLast⟩
  · rintro ⟨before, after, rfl, isLast⟩
    obtain ⟨job, starts⟩ := (numbered.foldl before).startable isLast
    have executed : (before.foldl Debouncer.act state).executed? (.fire number) =
        some ⟨number, (before.foldl Debouncer.act state).now, job.action⟩ := by
      rw [executed?, starts]
      rfl
    exact executes_append.2 (.inr ⟨_, List.mem_append_left _ (Option.mem_toList.2 executed), rfl⟩)

theorem hasFired_fire (known : number < state.runs.length) : HasFired (state.act (.fire number)) number := by
  refine ⟨{ state.runs[number] with fired := true }, ?_, rfl⟩
  rw [runs_fire, runs_markFired, List.getElem?_eq_getElem known, Option.map_some, if_pos rfl]

end executes

/-- The pending run is the last one, and its timer has not fired. -/
structure Tracks (state : Debouncer α) : Prop where
  numbered : Numbered state
  pending : ∀ {number : Nat}, state.pending = some number → number + 1 = state.runs.length ∧ ¬HasFired state number

theorem tracks_start (delay : Nat) : Tracks { delay : Debouncer α } where
  numbered := rfl
  pending isPending := by cases isPending

/-- While a run is pending, its timer is the only one that starts a job. -/
theorem Tracks.startable_iff (tracks : Tracks state) (isPending : state.pending = some number) {fired : Nat} :
    (∃ job, state.startable? fired = some job) ↔ fired = number := by
  have isLast := (tracks.pending isPending).1
  constructor
  · rintro ⟨job, starts⟩
    have firedLast := (tracks.numbered.last_of_startable starts).1
    omega
  · rintro rfl
    exact tracks.numbered.startable isLast

theorem Tracks.act (tracks : Tracks state) (act : Act α) : Tracks (state.act act) := by
  refine ⟨tracks.numbered.act act, fun {number} isPending => ?_⟩
  cases act with
  | schedule job =>
    obtain rfl : state.runs.length = number := by
      rw [← length_cancelPending state]
      exact Option.some.inj isPending
    refine ⟨(length_schedule state job).symm, ?_⟩
    rintro ⟨run, isRun, isFired⟩
    obtain rfl := Option.some.inj ((runs_schedule_new state job).symm.trans isRun)
    cases isFired
  | cancelPending =>
    rw [Debouncer.act, cancelPending] at isPending
    split at isPending
    · rename_i none
      rw [none] at isPending
      cases isPending
    · cases isPending
  | cancel cancelled =>
    obtain ⟨isLast, waits⟩ := tracks.pending isPending
    exact ⟨isLast.trans (List.length_modify ..).symm, fun hasFired => waits (hasFired.of_modify rfl fun _ _ => id)⟩
  | moveTo => exact tracks.pending isPending
  | fire fired =>
    rw [Debouncer.act] at isPending
    cases starts : state.startable? fired with
    | some job =>
      rw [starts] at isPending
      cases isPending
    | none =>
      rw [starts] at isPending
      obtain ⟨isLast, waits⟩ := tracks.pending isPending
      have other : fired ≠ number := fun same => by
        obtain ⟨job, isJob⟩ := (tracks.startable_iff isPending).2 same
        rw [starts] at isJob
        cases isJob
      refine ⟨isLast.trans (length_act state (.fire fired)).symm, ?_⟩
      exact fun hasFired => waits (hasFired.of_modify (runs_fire state fired) fun same => absurd same other)

theorem Tracks.foldl (tracks : Tracks state) (acts : List (Act α)) : Tracks (acts.foldl Debouncer.act state) := by
  induction acts generalizing state with
  | nil => exact tracks
  | cons act acts ih => exact ih (tracks.act act)

section reports

theorem reports_cancelPending (reports : Reports state.cancelPending number) :
    Reports state number ∨ state.pending = some number := by
  cases isPending : state.pending with
  | none =>
    rw [cancelPending, isPending] at reports
    exact .inl reports
  | some pending =>
    rw [cancelPending, isPending] at reports
    by_cases same : pending = number
    · exact .inr (congrArg some same)
    · exact .inl (reports.of_modify rfl fun isSame => absurd isSame same)

theorem reports_fire {fired : Nat} (reports : Reports (state.act (.fire fired)) number) : Reports state number :=
  reports.of_modify (runs_fire state fired) fun _ _ => id

/-- A run is reported as cancelled from the call of its handle on, or from the end of its turn as the pending one. -/
theorem reports_act {act : Act α} (reports : Reports (state.act act) number) :
    Reports state number ∨ act = .cancel number ∨ state.pending = some number := by
  cases act with
  | schedule job =>
    obtain ⟨run, isRun, isCancelled⟩ := reports
    rw [Debouncer.act, runs_schedule, List.getElem?_append] at isRun
    split at isRun
    · exact (reports_cancelPending ⟨run, isRun, isCancelled⟩).imp_right .inr
    · obtain rfl := (List.mem_singleton.1 (List.mem_of_getElem? isRun)).symm
      cases isCancelled
  | cancelPending => exact (reports_cancelPending reports).imp_right .inr
  | cancel cancelled =>
    by_cases same : cancelled = number
    · exact .inr (.inl (congrArg _ same))
    · exact .inl (reports.of_modify rfl fun isSame => absurd isSame same)
  | moveTo => exact .inl reports
  | fire => exact .inl (reports_fire reports)

/-- After the timer has fired, only the handle of a run can have it reported as cancelled. -/
theorem Tracks.cancel_of_reports (tracks : Tracks state) (hasFired : HasFired state number)
    (reports : Reports (acts.foldl Debouncer.act state) number) :
    Reports state number ∨ ∃ before after, acts = before ++ .cancel number :: after := by
  induction acts generalizing state with
  | nil => exact .inl reports
  | cons act acts ih =>
    rcases ih (tracks.act act) (hasFired.foldl [act]) reports with here | ⟨before, after, rfl⟩
    · rcases reports_act here with already | rfl | isPending
      · exact .inl already
      · exact .inr ⟨[], acts, rfl⟩
      · exact absurd hasFired (tracks.pending isPending).2
    · exact .inr ⟨act :: before, after, rfl⟩

theorem reports_cancel (known : number < state.runs.length) : Reports (state.act (.cancel number)) number := by
  refine ⟨{ state.runs[number] with cancelled := true }, ?_, rfl⟩
  rw [Debouncer.act, runs_cancel, List.getElem?_eq_getElem known, Option.map_some, if_pos rfl]

end reports

/-- No run is executed, before or later, that is reported as cancelled at some time. -/
def Idle (start : Debouncer α) (acts : List (Act α)) : Prop :=
  ∀ before after number, acts = before ++ after → Reports (before.foldl Debouncer.act start) number →
    ¬Executes start acts number

/-- No handle is cancelled after the job of its run was done. -/
def NoneLate (start : Debouncer α) (acts : List (Act α)) : Prop :=
  ∀ before after number, acts = before ++ .cancel number :: after → ¬Executes start before number

/-- No timer of a run that is reported as cancelled fires while no later run was scheduled. -/
def NoneAstray (start : Debouncer α) (acts : List (Act α)) : Prop :=
  ∀ before after number, acts = before ++ .fire number :: after →
    Reports (before.foldl Debouncer.act start) number → number + 1 ≠ (before.foldl Debouncer.act start).runs.length

theorem Tracks.idle_iff (tracks : Tracks state) : Idle state acts ↔ NoneLate state acts ∧ NoneAstray state acts := by
  constructor
  · intro idle
    constructor
    · rintro before after number rfl executes
      have executed : Executes state (before ++ .cancel number :: after) number := executes_append.2 (.inl executes)
      refine idle (before ++ [.cancel number]) after number (by simp) ?_ executed
      rw [List.foldl_append]
      obtain ⟨execution, mem, rfl⟩ := executes
      exact reports_cancel (number_lt_of_mem mem)
    · rintro before after number rfl reports isLast
      exact idle before _ number rfl reports ((executes_iff tracks.numbered).2 ⟨before, after, rfl, isLast⟩)
  · rintro ⟨noneLate, noneAstray⟩ before after number rfl reports executes
    obtain ⟨early, late, split, isLast⟩ := (executes_iff tracks.numbered).1 executes
    have unreported : ¬Reports (early.foldl Debouncer.act state) number := fun earlier =>
      noneAstray early late number split earlier isLast
    rcases List.append_eq_append_iff.1 split with ⟨more, rfl, -⟩ | ⟨more, rfl, isMore⟩
    · -- The run was reported before it was executed.
      apply unreported
      rw [List.foldl_append]
      exact reports.foldl more
    · cases more with
      | nil => exact unreported (by simpa using reports)
      | cons act more =>
        obtain ⟨rfl, rfl⟩ := List.cons.inj isMore
        rw [List.foldl_append, List.foldl_cons] at reports
        have there := (tracks.foldl early).act (.fire number)
        have hasFired : HasFired ((early.foldl Debouncer.act state).act (.fire number)) number :=
          hasFired_fire (by omega)
        rcases there.cancel_of_reports hasFired reports with earlier | ⟨between, rest, rfl⟩
        · exact unreported (reports_fire earlier)
        · refine noneLate (early ++ .fire number :: between) (rest ++ after) number (by simp) ?_
          exact (executes_iff tracks.numbered).2 ⟨early, between, rfl, isLast⟩

/-- The loop fires only timers that wait. -/
theorem waits_of_kept {before after : List (Act α)} (kept : Kept stubborn state acts)
    (split : acts = before ++ .fire number :: after) :
    ∃ run, (before.foldl Debouncer.act state).runs[number]? = some run ∧ run.isWaiting stubborn = true := by
  induction kept generalizing before with
  | nil => cases before <;> cases split
  | asked isAsked _ ih =>
    rcases before with _ | ⟨first, before⟩
    · cases split
      cases isAsked
    · cases split
      exact ih rfl
  | passed _ _ ih =>
    rcases before with _ | ⟨first, before⟩
    · cases split
    · cases split
      exact ih rfl
  | @fired state until_ fired run acts found isRun _ ih =>
    rcases before with _ | ⟨first, _ | ⟨second, before⟩⟩
    · cases split
    · cases split
      exact ⟨run, isRun, isWaiting_of_firstDue? found isRun⟩
    · cases split
      exact ih rfl

/-- What cancellations come to in a run over steps. -/
structure Cancels (stubborn : Bool) (start : Debouncer α) (steps : List (Step α)) : Prop where
  idle_iff : Idle start (start.history stubborn steps) ↔
    NoneLate start (start.history stubborn steps) ∧ NoneAstray start (start.history stubborn steps)
  silent : stubborn = false → NoneAstray start (start.history stubborn steps)
  later : stubborn = false → ∀ before after number, start.history stubborn steps = before ++ after →
    Reports (before.foldl act start) number → ¬Executes (before.foldl act start) after number
  superseded : ∀ before job after number, start.history stubborn steps = before ++ .schedule job :: after →
    number < (before.foldl act start).runs.length →
    ¬Executes (before.foldl act start) (.schedule job :: after) number

theorem cancels_run (stubborn : Bool) (delay : Nat) (steps : List (Step α)) : Cancels stubborn { delay } steps := by
  have tracks : Tracks { delay : Debouncer α } := tracks_start delay
  have kept : Kept stubborn { delay } (history stubborn { delay } steps) := kept_history _ steps
  have unreported (honours : stubborn = false) {before after : List (Act α)} {number : Nat}
      (split : history stubborn { delay } steps = before ++ .fire number :: after) :
      ¬Reports (before.foldl Debouncer.act { delay }) number := by
    rintro ⟨run, isRun, isCancelled⟩
    obtain ⟨same, isSame, waits⟩ := waits_of_kept kept split
    obtain rfl := Option.some.inj (isSame.symm.trans isRun)
    rw [honours, Run.not_isWaiting_of_cancelled isCancelled] at waits
    cases waits
  refine ⟨tracks.idle_iff, ?silent, ?later, ?superseded⟩
  case silent =>
    intro honours before after number split reports
    exact absurd reports (unreported honours split)
  case later =>
    intro honours before after number split reports executes
    obtain ⟨quiet, rest, rfl, -⟩ := (executes_iff (tracks.foldl before).numbered).1 executes
    have fires : history stubborn { delay } steps = (before ++ quiet) ++ .fire number :: rest := by
      rw [split, List.append_assoc]
    refine unreported honours fires ?_
    rw [List.foldl_append]
    exact reports.foldl quiet
  case superseded =>
    rintro before job after number - known ⟨execution, mem, rfl⟩
    rw [executions_asked rfl] at mem
    have isLate := (((tracks.foldl before).act (.schedule job)).numbered.late mem).2
    rw [Debouncer.act, length_schedule] at isLate
    omega

/-- A handle that is cancelled when the job is done, and a timer that fires although its handle was cancelled. -/
theorem not_idle_of_cancel :
    ¬Idle { delay := 300 } (history false { delay := 300 } [.schedule (.once 'a'), .advance 300, .cancel 0]) ∧
      ¬Idle { delay := 300 } (history true { delay := 300 } [.schedule (.once 'a'), .cancel 0, .advance 300]) := by
  have done (acts : List (Act Char)) (executed : executions { delay := 300 } acts = [⟨0, 300, 'a'⟩]) :
      Executes { delay := 300 } acts 0 :=
    ⟨⟨0, 300, 'a'⟩, executed ▸ List.mem_cons_self, rfl⟩
  constructor
  · intro idle
    exact idle _ [] 0 (List.append_nil _).symm ⟨_, rfl, rfl⟩ (done _ rfl)
  · intro idle
    exact idle _ [] 0 (List.append_nil _).symm ⟨_, rfl, rfl⟩ (done _ rfl)

end Flowchart.Debouncer
