import Flowchart.Abort
import Flowchart.Debounce
import Flowchart.Render
import Flowchart.Text.Blank

/-!
A preview that follows the edits of a source: each one restarts the wait, and the source is rendered when
no more edits come. A blank source is shown as nothing.
-/
namespace Flowchart

/-- Edits that wait to be rendered, and what was shown of the ones before. -/
structure Preview where
  settings : Settings
  renderer : Renderer := Renderer.svg
  edits : Debouncer String
  /-- How often something was shown. -/
  count : Nat := 0
  /-- What was shown last. -/
  latest : Option Rendering := none
  /-- All that was shown, and when. -/
  shown : List (Nat × Option Rendering) := []

namespace Preview

def start (settings : Settings) (renderer : Renderer := Renderer.svg) : Preview :=
  { settings, renderer, edits := { delay := settings.debounceMs } }

/-- The delays in milliseconds that are too long: as seconds they are nearer to the power of two that follows the
largest double, if not beyond it. -/
@[irreducible]
def delayLimit : Nat :=
  1000 * (Nat.pow 2 1024 - Nat.pow 2 970)

/-- Starts a preview unless its delay is too long for the clock. -/
def start? (settings : Settings) (renderer : Renderer := Renderer.svg) : Except Abort Preview :=
  if settings.debounceMs < delayLimit then .ok (start settings renderer) else .error .endlessDelay

def update (preview : Preview) (source : String) : Preview :=
  { preview with edits := preview.edits.schedule (.once source) }

def close (preview : Preview) : Preview :=
  { preview with edits := preview.edits.cancelPending }

def cancel (preview : Preview) (number : Nat) : Preview :=
  { preview with edits := preview.edits.cancel number }

def show? (preview : Preview) (source : String) : Option Rendering :=
  if Text.isBlankText source then none
  else some (Rendering.draw source preview.settings preview.renderer)

/-- Shows a source at a moment. -/
def present (preview : Preview) (call : Nat × String) : Preview :=
  let latest := preview.show? call.2
  { preview with
    count := preview.count + 1
    latest
    shown := preview.shown ++ [(call.1, latest)] }

/-- Lets time pass, and shows the sources whose time has come. -/
def advance (preview : Preview) (time : Nat) : Preview :=
  let edits := preview.edits.advance false time
  (edits.calls.drop preview.edits.calls.length).foldl present { preview with edits }

/-- What was shown since there were a number of earlier ones. -/
def shownSince (preview : Preview) (earlier : Nat) : List (Nat × Option Rendering) :=
  preview.shown.drop earlier

end Preview
end Flowchart
