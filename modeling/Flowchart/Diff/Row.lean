import Flowchart.Diff
import Flowchart.Text.Lines

/-!
Two texts side by side, line by line.
-/
namespace Flowchart.Diff

/-- How the two sides of a row relate. -/
inductive RowKind where
  | equal | removed | added | changed
  deriving DecidableEq, Repr, Inhabited

namespace RowKind

def name : RowKind → String
  | equal => "equal"
  | removed => "removed"
  | added => "added"
  | changed => "changed"

def ofName? (text : String) : Option RowKind :=
  [equal, removed, added, changed].find? (·.name == text)

end RowKind

/-- A line of the old text beside a line of the new one. -/
structure Row where
  kind : RowKind
  old : Option String
  new : Option String
  deriving DecidableEq, Repr, Inhabited

namespace Row

/-- The rows of a replaced stretch: its sides are paired off from the top. -/
def pair : List String → List String → List Row
  | old :: olds, new :: news => ⟨.changed, some old, some new⟩ :: pair olds news
  | olds, [] => olds.map fun old => ⟨.removed, some old, none⟩
  | [], news => news.map fun new => ⟨.added, none, some new⟩

def ofEdit : Edit String → List Row
  | .keep lines => lines.map fun line => ⟨.equal, some line, some line⟩
  | .change old new => pair old new

def ofTexts (old new : String) : List Row :=
  (edits (fun _ => true) (Text.lineBodies old) (Text.lineBodies new)).flatMap ofEdit

end Row
end Flowchart.Diff
