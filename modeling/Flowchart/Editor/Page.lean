import Flowchart.Editor

/-!
The page of the editor, and which parts of it answer to which.
-/
namespace Flowchart.Editor.Page

def title : String := "Flowdraw Diagram Editor"

/-- The source that a new page shows. -/
def sample : String :=
  "\n".intercalate
    ["graph TD",
      "    A[Christmas] -->|Get money| B(Go shopping)",
      "    B --> C\x7bLet me think\x7d",
      "    C -->|One| D[Laptop]",
      "    C -->|Two| E[iPhone]",
      "    C -->|Three| F[Car]"]

def paneStyle : List (String × String) :=
  [("flex", "1"), ("display", "flex"), ("flexDirection", "column"), ("gap", "0.5rem")]

/-- The pane with the source, which also keeps the edits and the clock. -/
def sourcePane (settings : Settings) : Widget :=
  let style := [("width", "100%"), ("height", "60vh"), ("fontFamily", "monospace")]
  .group "Div" [("style", .style paneStyle)]
    [.heading 3 "Editor",
      .bare "Textarea" [("id", .text "editor"), ("value", .text sample), ("style", .style style)],
      .place "Store" "pending-edit",
      .bare "Store" [("id", .text "rendered-revision"), ("data", .number 0)],
      .bare "Interval" [("id", .text "render-timer"), ("interval", .number (tickInterval settings))]]

/-- The pane with the picture and the error. -/
def picturePane : Widget :=
  let style := [("width", "100%"), ("height", "60vh"), ("border", "none")]
  .group "Div" [("style", .style paneStyle)]
    [.heading 3 "Preview",
      .bare "Iframe" [("id", .text "preview"), ("style", .style style)],
      .place "Div" "error-panel",
      .button "fix-button" "Fix with AI"]

def layout (settings : Settings) : Widget :=
  let keyField : List (String × Attribute) :=
    [("id", .text "api-key"), ("type", .text "password"), ("placeholder", .text "Gemini API key")]
  .group "Div" [("style", .style [("fontFamily", "sans-serif"), ("padding", "2rem")])]
    [.heading 1 title,
      .group "Div" [("style", .style [("display", "flex"), ("gap", "1rem")])]
        [sourcePane settings, picturePane],
      .rule,
      .heading 3 "Review AI fix",
      .place "Div" "diff-view",
      .button "apply-button" "Apply fix",
      .place "Store" "suggestion-store",
      .rule,
      .heading 3 "Settings",
      .bare "Input" keyField,
      .button "save-key" "Save key",
      .bare "Span" [("id", .text "key-status"), ("style", .style [("marginLeft", "1rem")])]]

/-- A property of an element that answers, or is answered to. -/
structure Slot where
  element : String
  property : String
  deriving DecidableEq, Repr

/-- Which slots change together when another one does, and which ones are looked at then. -/
structure Reaction where
  outputs : List Slot
  trigger : Slot
  state : List Slot
  /-- Nothing happens before the trigger changes for the first time. -/
  waits : Bool
  deriving DecidableEq, Repr

def reactions : List Reaction :=
  [⟨[⟨"pending-edit", "data"⟩], ⟨"editor", "value"⟩, [⟨"pending-edit", "data"⟩], false⟩,
    ⟨[⟨"preview", "srcDoc"⟩, ⟨"error-panel", "children"⟩, ⟨"rendered-revision", "data"⟩],
      ⟨"render-timer", "n_intervals"⟩, [⟨"pending-edit", "data"⟩, ⟨"rendered-revision", "data"⟩], false⟩,
    ⟨[⟨"suggestion-store", "data"⟩, ⟨"diff-view", "children"⟩], ⟨"fix-button", "n_clicks"⟩,
      [⟨"editor", "value"⟩], true⟩,
    ⟨[⟨"editor", "value"⟩, ⟨"suggestion-store", "data"⟩, ⟨"diff-view", "children"⟩],
      ⟨"apply-button", "n_clicks"⟩, [⟨"suggestion-store", "data"⟩], true⟩,
    ⟨[⟨"key-status", "children"⟩], ⟨"save-key", "n_clicks"⟩, [⟨"api-key", "value"⟩], true⟩]

end Flowchart.Editor.Page
