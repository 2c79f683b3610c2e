import Flowchart.Credentials
import Flowchart.Widget
import Flowchart.Render
import Flowchart.Repair

/-!
An editor on a page: what is typed is rendered when the typing has settled, and a source that fails can be
sent to the repair service. The page asks at regular ticks whether there is anything new to show.
-/
namespace Flowchart.Editor

/-- The latest text that was typed, how many there were up to it, and when it came, in seconds. -/
structure Edit (τ : Type) where
  code : String
  revision : Nat
  moment : τ
  deriving Repr

/-- What was typed last, and the revision that is shown. -/
structure State (τ : Type) where
  pending : Option (Edit τ) := none
  rendered : Nat := 0
  deriving Repr

/-- What a source looks like: its picture, or a panel that tells the error. -/
structure View where
  markup : String := ""
  panel : Option Widget := none

def errorStyle : List (String × String) :=
  [("color", "#9f1239"), ("background", "#fff1f2"), ("border", "1px solid #fecdd3"), ("padding", "1rem"),
    ("fontFamily", "monospace")]

def errorPanel (failure : Failure) : Widget :=
  .group "Div" [("style", .style errorStyle)]
    [.label "Strong" [] "Syntax error detected", .paragraph failure.describe]

/-- The view of a source; a blank one shows nothing. -/
def view (settings : Settings) (code : String) : View :=
  if Text.isBlankText code then {}
  else
    let rendering := Rendering.draw code settings Renderer.svg
    match rendering.error with
    | some failure => { panel := some (errorPanel failure) }
    | none => { markup := rendering.svg.getD "" }

/-- Milliseconds between ticks: at most half of the wait, but not below fifty. -/
def tickInterval (settings : Settings) : Nat :=
  max 50 (settings.debounceMs / 2)

section
variable {τ : Type} [Coordinate τ]

def Edit.next (pending : Option (Edit τ)) (code : String) (now : τ) : Edit τ :=
  ⟨code, (pending.map (·.revision)).getD 0 + 1, now⟩

def State.type (state : State τ) (code : String) (now : τ) : State τ :=
  { state with pending := some (Edit.next state.pending code now) }

/-- The edit that is to be shown now, if it is not shown already and the typing has settled. -/
def State.settled? (state : State τ) (debounceMs : Nat) (now : τ) : Option (Edit τ) :=
  state.pending.filter fun edit =>
    edit.revision != state.rendered && !decide ((now - edit.moment) * 1000.0 < (debounceMs : τ))

/-- A tick: what is shown by it, if anything, and the state behind it. -/
def State.tick (state : State τ) (debounceMs : Nat) (now : τ) : Option (Edit τ) × State τ :=
  match state.settled? debounceMs now with
  | none => (none, state)
  | some edit => (some edit, { state with rendered := edit.revision })

end

/-- What comes of asking for a repair. -/
inductive Fix where
  | notNeeded
  | noKey
  | badKey (error : CredentialError)
  | failed (error : Repair.Error)
  | suggested (suggestion : Suggestion)

def rowColour : Diff.RowKind → String
  | .equal => "transparent"
  | .removed => "#fef2f2"
  | .added => "#f0fdf4"
  | .changed => "#fefce8"

def rowWidget (row : Diff.Row) : Widget :=
  let style :=
    [("background", rowColour row.kind), ("fontFamily", "monospace"), ("whiteSpace", "pre")]
  .group "Tr" [("style", .style style)]
    [.label "Td" [] (row.old.getD ""), .label "Td" [] (row.new.getD "")]

/-- Rows side by side in a table: the source on the left, the suggestion on the right. -/
def diffTable (rows : List Diff.Row) : Widget :=
  let header : Widget :=
    .group "Tr" [] [.label "Th" [] "Your code", .label "Th" [] "AI suggestion"]
  .group "Table" [("style", .style [("width", "100%")])] (header :: rows.map rowWidget)

namespace Fix

/-- The text that may be put in place of the source. -/
def text? : Fix → Option String
  | suggested suggestion => some suggestion.text
  | _ => none

def element : Fix → Widget
  | notNeeded => .paragraph "The diagram renders; there is nothing to fix."
  | noKey => .paragraph "Set an API key in Settings to use AI repair."
  | badKey error => .paragraph s!"Error: {error.message}"
  | failed error => .paragraph s!"Error: {error.message}"
  | suggested suggestion => diffTable suggestion.rows

end Fix

section
variable {m : Type → Type} [Monad m] [Files m] [Repair.Service m]

/-- Asks for a repair of a source that fails, if there is a key to ask with. -/
def fix (settings : Settings) (keyPath : Path) (account : String → Repair.Account) (code : String) :
    m (Except Abort Fix) := do
  match (Rendering.draw code settings Renderer.svg).error with
  | none => return .ok .notNeeded
  | some failure =>
    match ← Credentials.load keyPath with
    | .error error =>
      match error.abort? with
      | some cause => return .error cause
      | none => return .ok (.badKey error)
    | .ok none => return .ok .noKey
    | .ok (some key) =>
      match ← Repair.suggest (Repair.correct (account key)) code failure with
      | .error error => return .ok (.failed error)
      | .ok suggestion => return .ok (.suggested suggestion)

/-- Keeps a key: what is said about it. -/
def saveKey (keyPath : Path) (key : String) : m String := do
  match ← Credentials.save keyPath key with
  | .error error => return s!"Error: {error.message}"
  | .ok () => return "API key saved."

end

/-- The account that the settings choose for a key. -/
def account (settings : Settings) (key : String) : Repair.Account :=
  { key, model := settings.aiModel, temperature := settings.aiTemperature }

end Flowchart.Editor
