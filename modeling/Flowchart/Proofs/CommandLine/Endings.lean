import Flowchart.Proofs.Abort
import Flowchart.Proofs.CommandLine.World

/-!
How commands end: with code 0, with code 1 and a line that tells why, or without a code at what stops them.
-/
namespace Flowchart.CommandLine

/-- What may stop a command without a code, and whether it may answer that there is no repair. -/
structure Risks where
  /-- What may be wrong with a file that is read. -/
  file : Path → Abort → Prop
  /-- The paths of which it has to be known whether there is anything. -/
  probe : Path → Prop
  /-- What may come of settings that were accepted. -/
  settings : Abort → Prop
  asks : Prop

variable {α β : Type} {loader : Yaml.Loader} {risks : Risks} {before between after : World}

/-- The last line on the error output tells what went wrong. -/
def ToldError (world : World) : Prop :=
  ∃ message : String, world.errors.getLast? = some (Colour.red.paint s!"Error: {message}" ++ "\n")

/-- All that was read between two moments was text. -/
def Passed (before after : World) : Prop :=
  ∃ reads, after.reads = before.reads ++ reads ∧ ∀ read ∈ reads, read.2 ≠ .error .notText

/-- How a command ends. Only a command that asks for a repair may be told that there is none. -/
inductive Ended (loader : Yaml.Loader) (risks : Risks) (before after : World) : Outcome → Prop where
  | done : Passed before after → Ended loader risks before after (.code 0)
  | told : Passed before after → ToldError after → Ended loader risks before after (.code 1)
  | unchanged : risks.asks → Passed before after →
      after.output.getLast? = some "The repair service suggested no changes.\n" →
      Ended loader risks before after (.code 1)
  /-- The file that was read last stops the command. -/
  | stopped {between : World} {path : Path} {read : Except ReadError String} {cause : Abort} : Passed before between →
      after.reads = between.reads ++ [(path, read)] → Stops loader read cause → risks.file path cause →
      Ended loader risks before after (.aborted cause)
  | unreachable {path : Path} {error : FileError} : Passed before after → risks.probe path →
      after.isPresent path = .error error → Ended loader risks before after (.aborted (.unreachable error))
  | spoiled {cause : Abort} : Passed before after → risks.settings cause → cause ≠ .notText →
      Ended loader risks before after (.aborted cause)

namespace Passed

theorem refl (world : World) : Passed world world :=
  ⟨[], (List.append_nil _).symm, List.forall_mem_nil _⟩

theorem trans (first : Passed before between) (second : Passed between after) : Passed before after := by
  obtain ⟨reads, eq, passed⟩ := first
  obtain ⟨more, eqMore, passedMore⟩ := second
  refine ⟨reads ++ more, ?_, List.forall_mem_append.2 ⟨passed, passedMore⟩⟩
  rw [eqMore, eq, List.append_assoc]

end Passed

theorem Ended.trans {outcome : Outcome} (first : Passed before between)
    (second : Ended loader risks between after outcome) : Ended loader risks before after outcome := by
  cases second with
  | done passed => exact .done (first.trans passed)
  | told passed told => exact .told (first.trans passed) told
  | unchanged asks passed last => exact .unchanged asks (first.trans passed) last
  | stopped passed last stops isFile => exact .stopped (first.trans passed) last stops isFile
  | unreachable passed isProbe fails => exact .unreachable (first.trans passed) isProbe fails
  | spoiled passed spoils other => exact .spoiled (first.trans passed) spoils other

/-- What a step may come to: the command goes on, or it ends. -/
def Follows (loader : Yaml.Loader) (risks : Risks) (before : World) : Except Outcome α × World → Prop
  | (.ok _, after) => Passed before after
  | (.error outcome, after) => Ended loader risks before after outcome

theorem Follows.trans {result : Except Outcome α × World} (first : Passed before between)
    (second : Follows loader risks between result) : Follows loader risks before result := by
  obtain ⟨_ | _, after⟩ := result
  · exact Ended.trans first second
  · exact Passed.trans first second

/-- An action that reads nothing but texts. -/
def Quiet (action : Machine α) : Prop :=
  ∀ before, Passed before (action.run before).2

/-- A run that ends as a command may. -/
def Ends (loader : Yaml.Loader) (risks : Risks) (run : Machine Outcome) : Prop :=
  ∀ before, Ended loader risks before (run.run before).2 (run.run before).1

/-- A step that goes on, or ends as a command may. -/
def Proper (loader : Yaml.Loader) (risks : Risks) (step : Step Machine α) : Prop :=
  ∀ before, Follows loader risks before (StateT.run (ExceptT.run step) before)

section steps

theorem Quiet.bind {first : Machine α} {next : α → Machine β} (quiet : Quiet first) (goesOn : ∀ a, Quiet (next a)) :
    Quiet (first >>= next) :=
  fun before => (quiet before).trans (goesOn _ _)

theorem Quiet.ends {first : Machine α} {next : α → Machine Outcome} (quiet : Quiet first)
    (goesOn : ∀ a, Ends loader risks (next a)) : Ends loader risks (first >>= next) :=
  fun before => Ended.trans (quiet before) (goesOn _ _)

theorem run_bind (first : Step Machine α) (next : α → Step Machine β) (before : World) :
    StateT.run (ExceptT.run (first >>= next)) before = match StateT.run (ExceptT.run first) before with
      | (.ok a, between) => StateT.run (ExceptT.run (next a)) between
      | (.error outcome, after) => (.error outcome, after) := by
  rw [ExceptT.run_bind, StateT.run_bind]
  generalize StateT.run (ExceptT.run first) before = started
  obtain ⟨_ | _, between⟩ := started <;> rfl

theorem Proper.bind {first : Step Machine α} {next : α → Step Machine β} (proper : Proper loader risks first)
    (goesOn : ∀ a, Proper loader risks (next a)) : Proper loader risks (first >>= next) := by
  intro before
  have started := proper before
  rw [run_bind]
  generalize StateT.run (ExceptT.run first) before = outcome at started ⊢
  obtain ⟨_ | a, between⟩ := outcome
  · exact started
  · exact Follows.trans started (goesOn a between)

theorem run_lift (action : Machine α) (next : α → Step Machine β) (before : World) :
    StateT.run (ExceptT.run (liftM action >>= next)) before =
      StateT.run (ExceptT.run (next (action.run before).1)) (action.run before).2 := by
  rw [run_bind]
  rfl

theorem Quiet.proper {action : Machine α} (quiet : Quiet action) :
    Proper loader risks (liftM action : Step Machine α) :=
  quiet

/-- A file is loaded so that the command may go on, or so that it stops at this file. -/
def Loads {ε : Type} (loader : Yaml.Loader) (risks : Risks) (abort? : ε → Option Abort)
    (action : Machine (Except ε α)) : Prop :=
  ∀ before, match stop? abort? (action.run before).1 with
    | none => Passed before (action.run before).2
    | some cause => Ended loader risks before (action.run before).2 (.aborted cause)

theorem Loads.proper {ε : Type} {abort? : ε → Option Abort} {action : Machine (Except ε α)}
    {next : Except ε α → Step Machine β} (loads : Loads loader risks abort? action)
    (found : ∀ a, Proper loader risks (next (.ok a)))
    (failed : ∀ error, abort? error = none → Proper loader risks (next (.error error)))
    (stopped : ∀ error cause, abort? error = some cause → next (.error error) = abort cause) :
    Proper loader risks (liftM action >>= next) := by
  intro before
  have loaded := loads before
  rw [run_lift]
  generalize action.run before = result at loaded ⊢
  obtain ⟨error | a, between⟩ := result
  · cases isStop : abort? error with
    | none =>
      simp only [stop?, isStop] at loaded
      exact Follows.trans loaded (failed error isStop between)
    | some cause =>
      simp only [stop?, isStop] at loaded
      rw [stopped error cause isStop]
      exact loaded
  · exact Follows.trans loaded (found a between)

theorem Loads.ends {ε : Type} {abort? : ε → Option Abort} {action : Machine (Except ε α)}
    {next : Except ε α → Machine Outcome} (loads : Loads loader risks abort? action)
    (found : ∀ a, Ends loader risks (next (.ok a)))
    (failed : ∀ error, abort? error = none → Ends loader risks (next (.error error)))
    (stopped : ∀ error cause, abort? error = some cause → next (.error error) = pure (.aborted cause)) :
    Ends loader risks (action >>= next) := by
  intro before
  have loaded := loads before
  rw [StateT.run_bind]
  generalize action.run before = result at loaded ⊢
  obtain ⟨error | a, between⟩ := result
  · cases isStop : abort? error with
    | none =>
      simp only [stop?, isStop] at loaded
      exact Ended.trans loaded (failed error isStop between)
    | some cause =>
      simp only [stop?, isStop] at loaded
      show Ended loader risks before (StateT.run (next (.error error)) between).2
        (StateT.run (next (.error error)) between).1
      rw [stopped error cause isStop]
      exact loaded
  · exact Ended.trans loaded (found a between)

end steps

end Flowchart.CommandLine
