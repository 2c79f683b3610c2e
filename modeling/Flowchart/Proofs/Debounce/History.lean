import Flowchart.Debounce

/-!
What happens to a debouncer, one thing after another: what is asked of it from outside, the moves of its
clock, the timers that fire, and what the jobs schedule that they start. A run over steps comes to what its
history comes to.
-/
namespace Flowchart.Debouncer

variable {α : Type}

/-- What is asked of a debouncer. -/
inductive Step (α : Type) where
  | schedule (job : Job α)
  | cancelPending
  | cancel (number : Nat)
  | advance (time : Nat)

def step (stubborn : Bool) (state : Debouncer α) : Step α → Debouncer α
  | .schedule job => state.schedule job
  | .cancelPending => state.cancelPending
  | .cancel number => state.cancel number
  | .advance time => state.advance stubborn time

def run (stubborn : Bool) (state : Debouncer α) (steps : List (Step α)) : Debouncer α :=
  steps.foldl (step stubborn) state

/-- One thing that happens. A timer that fires starts a job, and what the job schedules happens next. -/
inductive Act (α : Type) where
  | schedule (job : Job α)
  | cancelPending
  | cancel (number : Nat)
  | moveTo (time : Nat)
  | fire (number : Nat)

/-- The job that the timer of a run starts when it fires now. -/
def startable? (state : Debouncer α) (number : Nat) : Option (Job α) :=
  state.runs[number]?.bind fun run => if run.generation = state.generation then some run.job else none

/-- Does the action of a job, without what follows from it. -/
def start (state : Debouncer α) (job : Job α) : Debouncer α :=
  { state with pending := none, calls := state.calls ++ [(state.now, job.action)] }

def act (state : Debouncer α) : Act α → Debouncer α
  | .schedule job => state.schedule job
  | .cancelPending => state.cancelPending
  | .cancel number => state.cancel number
  | .moveTo time => state.moveTo time
  | .fire number =>
    match state.startable? number with
    | some job => (state.markFired number).start job
    | none => state.markFired number

/-- What happens when the clock moves to the time of a run. -/
def firing (state : Debouncer α) (number : Nat) : List (Act α) :=
  match state.runs[number]? with
  | none => []
  | some run =>
    .moveTo run.due :: .fire number :: ((state.startable? number).elim [] Job.next).map .schedule

/-- What happens while all timers fire that are due by a given time. -/
def settling (stubborn : Bool) (until_ : Nat) (fuel : Nat) (state : Debouncer α) : List (Act α) :=
  match fuel with
  | 0 => [.moveTo until_]
  | fuel + 1 =>
    match firstDue? stubborn until_ state.runs with
    | none => [.moveTo until_]
    | some number => state.firing number ++ settling stubborn until_ fuel (state.fireAtDue number)

def Step.acts (stubborn : Bool) (state : Debouncer α) : Step α → List (Act α)
  | .schedule job => [.schedule job]
  | .cancelPending => [.cancelPending]
  | .cancel number => [.cancel number]
  | .advance time => settling stubborn (state.now + time) state.work state

/-- All that happens in a run over steps. -/
def history (stubborn : Bool) (state : Debouncer α) : List (Step α) → List (Act α)
  | [] => []
  | step :: steps => step.acts stubborn state ++ (state.step stubborn step).history stubborn steps

theorem foldl_schedules (state : Debouncer α) (jobs : List (Job α)) :
    (jobs.map Act.schedule).foldl act state = jobs.foldl schedule state := by
  rw [List.foldl_map]
  rfl

theorem foldl_firing (state : Debouncer α) (number : Nat) :
    (state.firing number).foldl act state = state.fireAtDue number := by
  cases found : state.runs[number]? with
  | none => simp [firing, fireAtDue, found]
  | some run =>
    have same : (state.moveTo run.due).startable? number = state.startable? number := rfl
    rw [firing, fireAtDue, found]
    simp only [List.foldl_cons, foldl_schedules, act, same]
    by_cases current : run.generation = state.generation
    · have starts : state.startable? number = some run.job := by simp [startable?, found, current]
      have isCurrent : run.generation = ((state.moveTo run.due).markFired number).generation := current
      rw [starts, fire, show (state.moveTo run.due).runs[number]? = some run from found]
      simp only [if_pos isCurrent]
      rfl
    · have idle : state.startable? number = none := by simp [startable?, found, current]
      have isStale : run.generation ≠ ((state.moveTo run.due).markFired number).generation := current
      rw [idle, fire, show (state.moveTo run.due).runs[number]? = some run from found]
      simp only [if_neg isStale]
      rfl

variable (stubborn : Bool)

theorem foldl_settling (until_ fuel : Nat) (state : Debouncer α) :
    (settling stubborn until_ fuel state).foldl act state = settle stubborn until_ fuel state := by
  induction fuel generalizing state with
  | zero => rfl
  | succ fuel ih =>
    rw [settling, settle]
    cases firstDue? stubborn until_ state.runs with
    | none => rfl
    | some number =>
      simp only
      rw [List.foldl_append, foldl_firing, ih]

theorem foldl_acts (state : Debouncer α) (step : Step α) :
    (step.acts stubborn state).foldl act state = state.step stubborn step := by
  cases step with
  | schedule => rfl
  | cancelPending => rfl
  | cancel => rfl
  | advance time => exact foldl_settling _ _ _ _

theorem run_eq_foldl_history (state : Debouncer α) (steps : List (Step α)) :
    state.run stubborn steps = (state.history stubborn steps).foldl act state := by
  induction steps generalizing state with
  | nil => rfl
  | cons step steps ih =>
    rw [history, List.foldl_append, foldl_acts, ← ih]
    rfl

end Flowchart.Debouncer
