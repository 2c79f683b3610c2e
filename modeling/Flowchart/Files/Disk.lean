import Flowchart.Files

/-!
Files that are kept as plain data: what is at each path, below the root or below the working directory.
-/
namespace Flowchart

/-- What may be at a path. -/
inductive Disk.Entry where
  | directory
  | file (content : ByteArray) (mode : Nat)
  deriving Inhabited

/-- The working directory and everything that is at some path, given by the steps from the root. -/
structure Disk where
  home : List String := []
  entries : List (List String × Disk.Entry) := []
  deriving Inhabited

namespace Disk

def defaultMode : Nat := 0o644

/-- What is at a place; the root is always there. -/
def entry? (disk : Disk) (place : List String) : Option Entry :=
  if place.isEmpty then some .directory else disk.entries.lookup place

/-- Follows one step from a place that has to be a directory. -/
def enter (disk : Disk) (path : Path) (place : List String) (step : String) :
    Except FileError (List String) :=
  match disk.entry? place with
  | some .directory => .ok (if step = ".." then place.dropLast else place ++ [step])
  | some (.file _ _) => .error (.notDirectory path)
  | none => .error (.missing path)

/-- The place that a path leads to. Everything on the way has to be a directory. -/
def place (disk : Disk) (path : Path) : Except FileError (List String) :=
  path.parts.foldlM (disk.enter path) (if path.root = "" then disk.home else [])

def put (disk : Disk) (place : List String) (entry : Entry) : Disk :=
  { disk with entries := disk.entries.filter (·.1 ≠ place) ++ [(place, entry)] }

def erase (disk : Disk) (place : List String) : Disk :=
  { disk with entries := disk.entries.filter (·.1 ≠ place) }

def find? (disk : Disk) (path : Path) : Option Entry :=
  match disk.place path with
  | .ok place => disk.entry? place
  | .error _ => none

def read (disk : Disk) (path : Path) : Except FileError ByteArray := do
  match disk.entry? (← disk.place path) with
  | some (.file content _) => .ok content
  | some .directory => .error (.isDirectory path)
  | none => .error (.missing path)

def readText (disk : Disk) (path : Path) : Except ReadError String := do
  Files.decode (← (disk.read path).mapError .file)

/-- Replaces the content of a file and keeps its mode, or creates the file. Modes and the room on the disk are not
looked at: whether they allow it is left to the surroundings. -/
def write (disk : Disk) (path : Path) (content : ByteArray) : Except FileError Disk := do
  let place ← disk.place path
  match disk.entry? place with
  | some (.file _ mode) => .ok (disk.put place (.file content mode))
  | some .directory => .error (.isDirectory path)
  | none => .ok (disk.put place (.file content defaultMode))

/-- What a write leaves that is cut off behind some bytes: the file was emptied before. -/
def writePart (disk : Disk) (path : Path) (content : ByteArray) (length : Nat) : Except FileError Disk :=
  disk.write path (content.extract 0 length)

def setMode (disk : Disk) (path : Path) (mode : Nat) : Except FileError Disk := do
  let place ← disk.place path
  match disk.entry? place with
  | some (.file content _) => .ok (disk.put place (.file content mode))
  | some .directory => .ok disk
  | none => .error (.missing path)

def remove (disk : Disk) (path : Path) : Except FileError Disk :=
  match disk.place path with
  | .error (.missing _) => .ok disk
  | .error error => .error error
  | .ok place =>
    match disk.entry? place with
    | some (.file _ _) => .ok (disk.erase place)
    | some .directory => .error (.isDirectory path)
    | none => .ok disk

def createDirectory (disk : Disk) (path : Path) : Except FileError Disk := do
  let place ← disk.place path
  match disk.entry? place with
  | none => .ok (disk.put place .directory)
  | some .directory => .ok disk
  | some (.file _ _) => .error (.alreadyExists path)

/-- Creates the directory that the given steps lead to; the innermost steps come first. If the one before
is missing it is created first. -/
def createFrom (disk : Disk) (root : String) : List String → Except FileError Disk
  | [] => .ok disk
  | step :: outer => do
    let path : Path := ⟨root, (step :: outer).reverse⟩
    match disk.createDirectory path with
    | .error (.missing _) => (← createFrom disk root outer).createDirectory path
    | result => result

def createDirectories (disk : Disk) (path : Path) : Except FileError Disk :=
  disk.createFrom path.root path.parts.reverse

/-- The outcome of an operation that may change the disk; a failed one does not. -/
def commit (result : Except FileError Disk) : StateM Disk (Except FileError Unit) :=
  match result with
  | .ok disk => do
    set disk
    return .ok ()
  | .error error => return .error error

instance : Files (StateM Disk) where
  isPresent path := do return .ok ((← get).find? path).isSome
  readText path := do return (← get).readText path
  write path text := do commit ((← get).write path text.toUTF8)
  createDirectories path := do commit ((← get).createDirectories path)
  setMode path mode := do commit ((← get).setMode path mode)
  remove path := do commit ((← get).remove path)

end Disk
end Flowchart
