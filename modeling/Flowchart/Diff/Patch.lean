import Flowchart.Diff
import Flowchart.Text.Lines

/-!
The unified form of a diff: hunks of changed lines with up to three unchanged lines around them. A new
text of at least two hundred lines is matched only by lines that are not too frequent in it.
-/
namespace Flowchart.Diff

/-- How many unchanged lines surround a change. -/
def context : Nat := 3

/-- An edit of lines and how many lines stand in front of it in each text. -/
structure Placed where
  oldStart : Nat
  newStart : Nat
  edit : Edit String
  deriving Repr

namespace Placed

/-- The edits with the lines in front of them counted. -/
def ofEdits (oldStart newStart : Nat) : List (Edit String) → List Placed
  | [] => []
  | edit :: rest =>
    ⟨oldStart, newStart, edit⟩ ::
      ofEdits (oldStart + edit.old.length) (newStart + edit.new.length) rest

/-- The first lines of a stretch that stays. -/
def keepFirst (count : Nat) (placed : Placed) : Placed :=
  match placed.edit with
  | .keep lines => { placed with edit := .keep (lines.take count) }
  | .change _ _ => placed

/-- The last lines of a stretch that stays. -/
def keepLast (count : Nat) (placed : Placed) : Placed :=
  match placed.edit with
  | .keep lines =>
    let skipped := lines.length - count
    ⟨placed.oldStart + skipped, placed.newStart + skipped, .keep (lines.drop skipped)⟩
  | .change _ _ => placed

/-- Edits of which the first keeps only the lines at its end, and the last only those at its head. -/
def trimEnds (edits : List Placed) : List Placed :=
  let headTrimmed :=
    match edits with
    | [] => []
    | first :: rest => first.keepLast context :: rest
  match headTrimmed.reverse with
  | [] => []
  | last :: rest => (last.keepFirst context :: rest).reverse

/-- Splits edits within long stretches that stay. `done` holds the open group, the latest edit first. -/
def groupsFrom (done : List Placed) : List Placed → List (List Placed)
  | [] => [done.reverse]
  | placed :: rest =>
    let isLong := !placed.edit.isChange && 2 * context < placed.edit.old.length
    if isLong then
      (placed.keepFirst context :: done).reverse :: groupsFrom [placed.keepLast context] rest
    else groupsFrom (placed :: done) rest

/-- Groups of edits that hold a change. -/
def groups (edits : List Placed) : List (List Placed) :=
  (groupsFrom [] (trimEnds edits)).filter (·.any (·.edit.isChange))

/-- The lines of an edit, each with the sign that tells its side. -/
def lines (placed : Placed) : List String :=
  match placed.edit with
  | .keep lines => lines.map (" " ++ ·)
  | .change old new => old.map ("-" ++ ·) ++ new.map ("+" ++ ·)

end Placed

/-- Some lines in the head of a hunk: the number of the first and the count. No lines are counted from
the one in front of them. -/
def rangeText (start count : Nat) : String :=
  if count = 1 then toString (start + 1)
  else if count = 0 then s!"{start},0"
  else s!"{start + 1},{count}"

def hunkText (group : List Placed) : String :=
  match group with
  | [] => ""
  | first :: _ =>
    let old := rangeText first.oldStart (group.flatMap (·.edit.old)).length
    let new := rangeText first.newStart (group.flatMap (·.edit.new)).length
    String.join (s!"@@ -{old} +{new} @@\n" :: group.flatMap Placed.lines)

/-- The lines of a text with their ends; the last one gets a line feed if it has none. -/
def endedLines (text : String) : List String :=
  let ended := if text.toList.getLast? = some '\n' then text else text.push '\n'
  (Text.splitLines ended.toList).map Text.Line.text

/-- A line that matches may start from: in a long text, one that is not too frequent. -/
def isRare (lines : List String) (line : String) : Bool :=
  lines.length < 200 || lines.count line ≤ lines.length / 100 + 1

/-- The unified diff of two texts; nothing if their lines are equal. -/
def patch (old new name : String) : String :=
  let oldLines := endedLines old
  let newLines := endedLines new
  let placed := Placed.ofEdits 0 0 (edits (isRare newLines) oldLines newLines)
  match Placed.groups placed with
  | [] => ""
  | groups =>
    String.join (s!"--- {name} (current)\n+++ {name} (suggested)\n" :: groups.map hunkText)

end Flowchart.Diff
