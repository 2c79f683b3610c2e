/-!
Debouncing on a clock of whole milliseconds: of all jobs that were scheduled, only the latest is run, once
nothing more was scheduled for a while. Each run has a generation, so that a run whose timer fires although
a later one has taken its place does nothing.
-/
namespace Flowchart

/-- Something to do, and the jobs that are scheduled when it is done. -/
inductive Job (α : Type) where
  | mk (action : α) (next : List (Job α))
  deriving Inhabited

namespace Job

variable {α : Type}

def action : Job α → α
  | mk action _ => action

def next : Job α → List (Job α)
  | mk _ next => next

mutual

/-- How many actions a job comes to. -/
def size : Job α → Nat
  | mk _ next => sizeAll next + 1

/-- How many actions some jobs come to. -/
def sizeAll : List (Job α) → Nat
  | [] => 0
  | job :: jobs => job.size + sizeAll jobs

end

theorem size_eq (job : Job α) : job.size = sizeAll job.next + 1 := by
  cases job
  simp [size, next]

def once (action : α) : Job α :=
  .mk action []

end Job

/-- A job that waits for its time, or did. -/
structure Run (α : Type) where
  generation : Nat
  due : Nat
  job : Job α
  cancelled : Bool := false
  /-- The timer has fired, whether or not the job was done then. -/
  fired : Bool := false

namespace Run

variable {α : Type}

/-- The timer of the run may still fire. A stubborn clock fires the timers of cancelled runs as well. -/
def isWaiting (stubborn : Bool) (run : Run α) : Bool :=
  !run.fired && (stubborn || !run.cancelled)

end Run

/-- Runs of jobs after a delay, with a clock and a record of what was done when. -/
structure Debouncer (α : Type) where
  delay : Nat
  now : Nat := 0
  generation : Nat := 0
  /-- All runs, in the order in which they were scheduled. -/
  runs : List (Run α) := []
  /-- The number of the run that was scheduled last, until it is run or all are cancelled. -/
  pending : Option Nat := none
  calls : List (Nat × α) := []

namespace Debouncer

variable {α : Type}

/-- Why there is no delay or no run. -/
inductive Error where
  | negativeDelay
  | noClock
  deriving DecidableEq, Repr

namespace Error

def message : Error → String
  | negativeDelay => "delay must not be negative"
  | noClock => "no running event loop"

end Error

/-- Starts with a delay in seconds, rounded to milliseconds. -/
def ofSeconds (seconds : Float) : Except Error (Debouncer α) :=
  if seconds < 0.0 then .error .negativeDelay
  else .ok { delay := (seconds * 1000.0).round.toUInt64.toNat }

/-- Cancels a run; it need not be the pending one. -/
def cancel (state : Debouncer α) (number : Nat) : Debouncer α :=
  { state with runs := state.runs.modify number fun run => { run with cancelled := true } }

def cancelPending (state : Debouncer α) : Debouncer α :=
  match state.pending with
  | none => state
  | some number => { state.cancel number with pending := none }

/-- What happens to a job that cannot be scheduled for want of a clock: it takes a generation and the
place of the pending run all the same. -/
def giveUp (state : Debouncer α) : Debouncer α :=
  let state := state.cancelPending
  { state with generation := state.generation + 1 }

/-- Schedules a job in place of the pending one. -/
def schedule (state : Debouncer α) (job : Job α) : Debouncer α :=
  let state := state.giveUp
  { state with
    runs := state.runs ++ [⟨state.generation, state.now + state.delay, job, false, false⟩]
    pending := some state.runs.length }

/-- Schedules a job if there is a clock. -/
def schedule? (hasClock : Bool) (state : Debouncer α) (job : Job α) : Option Error × Debouncer α :=
  if hasClock then (none, state.schedule job) else (some .noClock, state.giveUp)

/-- Marks a run whose timer has fired. -/
def markFired (state : Debouncer α) (number : Nat) : Debouncer α :=
  { state with runs := state.runs.modify number fun run => { run with fired := true } }

/-- Does a job and schedules the ones that follow from it. -/
def execute (state : Debouncer α) (job : Job α) : Debouncer α :=
  job.next.foldl schedule
    { state with pending := none, calls := state.calls ++ [(state.now, job.action)] }

/-- What the timer of a run does when it fires: nothing, unless no later job was scheduled. -/
def fire (state : Debouncer α) (number : Nat) : Debouncer α :=
  match state.runs[number]? with
  | none => state
  | some run =>
    let state := state.markFired number
    if run.generation = state.generation then state.execute run.job else state

/-- The number of the waiting run that is due first, the earliest of several, if it is due by a given
time. -/
def firstDue? (stubborn : Bool) (until_ : Nat) (runs : List (Run α)) : Option Nat :=
  let waiting := runs.zipIdx.filter fun (run, _) => run.isWaiting stubborn && run.due ≤ until_
  (waiting.foldl
    (fun (best : Option (Run α × Nat)) (run, number) =>
      match best with
      | some (earlier, _) => if run.due < earlier.due then some (run, number) else best
      | none => some (run, number))
    none).map (·.2)

def moveTo (state : Debouncer α) (time : Nat) : Debouncer α :=
  { state with now := max state.now time }

/-- Moves the clock to the time of a run and fires its timer. -/
def fireAtDue (state : Debouncer α) (number : Nat) : Debouncer α :=
  match state.runs[number]? with
  | none => state
  | some run => (state.moveTo run.due).fire number

/-- How many actions the runs whose timers have not fired come to. -/
def work (state : Debouncer α) : Nat :=
  Job.sizeAll ((state.runs.filter (!·.fired)).map (·.job))

/-- Fires all timers that are due by a given time, and moves the clock there. Each timer that fires uses up
an action of its job. -/
def settle (stubborn : Bool) (until_ : Nat) (fuel : Nat) (state : Debouncer α) : Debouncer α :=
  match fuel with
  | 0 => state.moveTo until_
  | fuel + 1 =>
    match firstDue? stubborn until_ state.runs with
    | none => state.moveTo until_
    | some number => settle stubborn until_ fuel (state.fireAtDue number)

def advance (stubborn : Bool) (state : Debouncer α) (time : Nat) : Debouncer α :=
  settle stubborn (state.now + time) state.work state

def pendingGeneration (state : Debouncer α) : Option Nat :=
  state.pending.bind fun number => state.runs[number]?.map (·.generation)

end Debouncer
end Flowchart
