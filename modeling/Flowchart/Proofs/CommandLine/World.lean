import Flowchart.CommandLine.Run
import Flowchart.Files.Disk

/-!
The surroundings of a command as plain data: files that others may change while it waits and that the system may
refuse, a service that may answer whatever it wants, and a record of what was read and said.
-/
namespace Flowchart

/-- What may be asked of the files at a path. -/
inductive Access where
  | probe | read | write | create | mode | remove
  deriving DecidableEq, Repr

/-- What others do around a command. -/
structure Surroundings where
  /-- What others do to the files until a moment. -/
  meanwhile : Rat → Disk → Disk := fun _ disk => disk
  /-- What the system refuses at a moment, and why: for want of a right, say. Nothing is changed by it. -/
  refusal : Rat → Access → Path → Option FileError := fun _ _ _ => none
  /-- Where a write fails on its way at a moment: behind how many bytes, and why. The disk may be full, say. -/
  cutOff : Rat → Path → String → Option (Nat × FileError) := fun _ _ _ => none
  /-- The answer to a request, which may depend on the earlier ones. -/
  service : List Repair.Request → Repair.Request → Except String (Option String) := fun _ _ => .ok none

/-- What surrounds a command, and what it has done so far; the latest comes last. -/
structure World where
  disk : Disk
  outside : Surroundings := {}
  now : Rat := 0
  requests : List Repair.Request := []
  reads : List (Path × Except ReadError String) := []
  output : List String := []
  errors : List String := []
  served : List (String × Int) := []

namespace World

def refusal? (world : World) (access : Access) (path : Path) : Option FileError :=
  world.outside.refusal world.now access path

/-- Whether there is anything at a path, if that can be told: nothing is where the path leads nowhere. -/
def isPresent (world : World) (path : Path) : Except FileError Bool :=
  match world.refusal? .probe path with
  | none => .ok (world.disk.find? path).isSome
  | some (.missing _) | some (.notDirectory _) => .ok false
  | some error => .error error

def readText (world : World) (path : Path) : Except ReadError String :=
  match world.refusal? .read path with
  | none => world.disk.readText path
  | some error => .error (.file error)

/-- What an operation comes to, and the disk behind it. -/
def tried (world : World) (access : Access) (path : Path) (result : Except FileError Disk) :
    Except FileError Unit × Disk :=
  match world.refusal? access path with
  | some error => (.error error, world.disk)
  | none =>
    match result with
    | .ok disk => (.ok (), disk)
    | .error error => (.error error, world.disk)

/-- What a write comes to, and the disk behind it. One that is cut off leaves a beginning of the text. -/
def written (world : World) (path : Path) (text : String) : Except FileError Unit × Disk :=
  match world.outside.cutOff world.now path text with
  | none => world.tried .write path (world.disk.write path text.toUTF8)
  | some (length, error) =>
    match world.tried .write path (world.disk.writePart path text.toUTF8 length) with
    | (.ok (), disk) => (.error error, disk)
    | failed => failed

section written

variable {world : World} {path : Path} {text : String} {disk : Disk}

theorem of_tried {access : Access} {result : Except FileError Disk}
    (done : world.tried access path result = (.ok (), disk)) : result = .ok disk := by
  unfold tried at done
  split at done
  · cases done
  · split at done
    · exact congrArg Except.ok (Prod.mk.inj done).2
    · cases done

theorem kept_of_tried {access : Access} {result : Except FileError Disk} {error : FileError}
    (fails : world.tried access path result = (.error error, disk)) : disk = world.disk := by
  unfold tried at fails
  split at fails
  · exact (Prod.mk.inj fails).2.symm
  · split at fails
    · cases fails
    · exact (Prod.mk.inj fails).2.symm

/-- A write that succeeds puts the whole text in its place. -/
theorem write_of_written (done : world.written path text = (.ok (), disk)) :
    world.disk.write path text.toUTF8 = .ok disk := by
  unfold written at done
  split at done
  · exact of_tried done
  · split at done
    · cases done
    · rename_i other
      exact (other disk done).elim

/-- A write that fails changes nothing, unless it was cut off. -/
theorem kept_or_cutOff {error : FileError} (fails : world.written path text = (.error error, disk)) :
    disk = world.disk ∨ ∃ length, world.outside.cutOff world.now path text = some (length, error) ∧
      world.disk.writePart path text.toUTF8 length = .ok disk := by
  unfold written at fails
  split at fails
  · exact .inl (kept_of_tried fails)
  · rename_i length reason isCutOff
    split at fails
    · rename_i part isPart
      obtain ⟨isReason, rfl⟩ := Prod.mk.inj fails
      obtain rfl := Except.error.inj isReason
      exact .inr ⟨length, isCutOff, of_tried isPart⟩
    · exact .inl (kept_of_tried fails)

end written
end World

/-- Runs of commands as functions of their surroundings. -/
abbrev Machine := StateM World

namespace Machine

/-- Does something with the disk and leaves the rest as it is. -/
def onDisk {α : Type} (action : World → α × Disk) : Machine α :=
  fun world => ((action world).1, { world with disk := (action world).2 })

instance : Files Machine where
  isPresent path := fun world => (world.isPresent path, world)
  readText path := fun world =>
    let text := world.readText path
    (text, { world with reads := world.reads ++ [(path, text)] })
  write path text := onDisk fun world => world.written path text
  createDirectories path := onDisk fun world => world.tried .create path (world.disk.createDirectories path)
  setMode path mode := onDisk fun world => world.tried .mode path (world.disk.setMode path mode)
  remove path := onDisk fun world => world.tried .remove path (world.disk.remove path)

instance : Console Machine where
  print text := modify fun world => { world with output := world.output ++ [text] }
  report text := modify fun world => { world with errors := world.errors ++ [text] }

instance : Clock Machine where
  waitUntil time := modify fun world =>
    { world with
      now := if world.now < time then time else world.now
      disk := world.outside.meanwhile time world.disk }

instance : Repair.Service Machine where
  ask request := fun world =>
    (world.outside.service world.requests request, { world with requests := world.requests ++ [request] })

instance : Server Machine where
  serve host number _ := modify fun world => { world with served := world.served ++ [(host, number)] }

end Machine
end Flowchart
