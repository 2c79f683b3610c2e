import Flowchart.Files
import Flowchart.Log
import Flowchart.Preview

/-!
Watching a file: it is read again and again, each new text is an edit of a preview, and what the preview
shows is written to another file. A source that fails leaves that file as it is.
-/
namespace Flowchart

/-- What is watched, where the pictures go, and how long to wait between two looks, in milliseconds. -/
structure Watch where
  input : Path
  output : Path
  settings : Settings
  interval : Rat

namespace Watch

/-- The ticks of the clock in a millisecond: the time between two looks is a whole number of them. -/
def ticks (watch : Watch) : Nat :=
  watch.interval.den

/-- The ticks between two looks. -/
def wait (watch : Watch) : Nat :=
  watch.interval.num.toNat

/-- The ticks that an edit has to stand. -/
def delay (watch : Watch) : Nat :=
  watch.settings.debounceMs * watch.ticks

/-- The moment of a tick. -/
def moment (watch : Watch) (tick : Nat) : Rat :=
  tick / watch.ticks

variable {m : Type → Type} [Monad m] [Files m] [Console m] [Clock m]

/-- What is said about a file that cannot be read. -/
def unreadable (path : Path) (error : FileError) : String :=
  s!"cannot read '{path}': {error.message}"

/-- Writes a picture, and tells whether it is there then. One that cannot be encoded leaves an empty file. -/
def writePicture (path : Path) (picture : String) (isEncodable : Bool) : m (Except Abort Bool) := do
  match ← Files.write path (if isEncodable then picture else "") with
  | .error error =>
    Console.error s!"cannot write '{path}': {error.message}"
    return .ok false
  | .ok () =>
    if isEncodable then
      Console.success s!"Wrote '{path}'."
      return .ok true
    else return .error .notEncodable

/-- What the clock tells of a picture that stopped its delivery. Of the text only the beginning is kept. -/
def stopped : LogEntry :=
  ⟨.error, "asyncio", "Exception in callback"⟩

/-- Writes what is shown, or tells why nothing is. -/
def deliver (watch : Watch) (shown : Option Rendering) : m Unit :=
  match shown with
  | none => pure ()
  | some rendering =>
    match rendering.error with
    | some failure => Console.error s!"{watch.input}: {failure.describe}"
    | none => do
      if let .error _ ← writePicture watch.output (rendering.svg.getD "") watch.settings.isEncodable then
        stopped.write false

/-- Lets some ticks pass, and delivers what is shown meanwhile. -/
def pass (watch : Watch) (preview : Preview) (ticks : Nat) : m Preview := do
  let later := preview.advance ticks
  for (tick, shown) in later.shownSince preview.count do
    Clock.waitUntil (watch.moment tick)
    watch.deliver shown
  Clock.waitUntil (watch.moment later.edits.now)
  return later

/-- What happens between two looks. Where there is no time between them, the next look is taken before an edit that is
due: so an edit of the last look waits for one that finds no other text. -/
def rest (watch : Watch) (preview : Preview) (edited : Bool) : m Preview :=
  if edited && watch.wait = 0 then pure preview else watch.pass preview watch.wait

/-- Looks at the file a number of times, and then waits until the last edit is shown. -/
def look (watch : Watch) (preview : Preview) (last : Option String) : Nat → m Outcome
  | 0 => do
    discard (watch.pass preview watch.delay)
    return .code 0
  | looks + 1 => do
    match ← Files.readText watch.input with
    | .error .notText => return .aborted .notText
    | .error (.file error) =>
      Console.error (unreadable watch.input error)
      return .code 1
    | .ok text =>
      let edited : Bool := last ≠ some text
      let preview := if edited then preview.update text else preview
      look watch (← watch.rest preview edited) (some text) looks

/-- The preview of a watch, whose clock counts the ticks of the watch. -/
def onTicks (watch : Watch) (preview : Preview) : Preview :=
  { preview with edits := { delay := watch.delay } }

def run (watch : Watch) (looks : Nat) : m Outcome :=
  match Preview.start? watch.settings with
  | .error cause => return .aborted cause
  | .ok preview => watch.look (watch.onTicks preview) none looks

end Watch
end Flowchart
