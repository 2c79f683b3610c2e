/-!
Pieces of a page.
-/
namespace Flowchart

/-- A property of an element. -/
inductive Attribute where
  | text (value : String)
  | number (value : Nat)
  | style (declarations : List (String × String))
  deriving DecidableEq, Repr

/-- An element of some kind with its properties, and what it holds: nothing, a text or elements. -/
inductive Widget where
  | bare (kind : String) (attributes : List (String × Attribute))
  | label (kind : String) (attributes : List (String × Attribute)) (text : String)
  | group (kind : String) (attributes : List (String × Attribute)) (inner : List Widget)

namespace Widget

def paragraph (text : String) : Widget :=
  .label "P" [] text

def heading (level : Nat) (text : String) : Widget :=
  .label s!"H{level}" [] text

/-- A rule between parts of a page. -/
def rule : Widget :=
  .bare "Hr" []

/-- A button that counts how often it was pressed. -/
def button (name text : String) : Widget :=
  .label "Button" [("id", .text name), ("n_clicks", .number 0)] text

/-- A place on the page that is filled later. -/
def place (kind name : String) : Widget :=
  .bare kind [("id", .text name)]

end Widget
end Flowchart
