import Flowchart.Proofs.Diff.Agreement

/-!
Texts side by side: the rows hold the lines of both texts in order, and the kind of a row tells how its sides relate.
That a row which is called changed has two different sides rests on the search for common stretches: a stretch that is
replaced shares no line with its replacement.
-/
namespace Flowchart.Diff

section Changes

variable {α : Type} [DecidableEq α] {isAnchor : α → Bool} {old new before after : List α} {fuel : Nat}

/-- A stretch that is replaced shares no anchor with its replacement, if there are turns enough to search all of it. -/
theorem not_mem_of_mem_split (enough : old.length < fuel) (mem : .change before after ∈ split isAnchor fuel old new) :
    ∀ item ∈ before, isAnchor item = true → item ∉ after := by
  induction fuel generalizing old new with
  | zero => exact absurd enough (Nat.not_lt_zero _)
  | succ fuel ih =>
    rcases split_cases isAnchor fuel old new with ⟨-, -, isSplit⟩ | ⟨isSplit, apart⟩ |
      ⟨oldFront, newFront, items, oldBack, newBack, rfl, rfl, some, isSplit⟩
    · rw [isSplit] at mem
      cases mem
    · rw [isSplit, List.mem_singleton] at mem
      cases mem
      exact apart
    · -- The stretch that stays is not empty, so both parts around it are shorter.
      have shorter := List.length_pos_iff.2 some
      rw [List.length_append, List.length_append] at enough
      rw [isSplit] at mem
      rcases List.mem_append.1 mem with inFront | here
      · exact ih (by omega) inFront
      · rcases List.mem_cons.1 here with isKeep | behind
        · cases isKeep
        · exact ih (by omega) behind

omit [DecidableEq α] in
theorem mem_of_mem_join {edits : List (Edit α)} (mem : .change before after ∈ join edits) :
    .change before after ∈ edits := by
  induction edits with
  | nil => exact mem
  | cons edit edits ih =>
    cases edit with
    | change =>
      rcases List.mem_cons.1 mem with same | later
      · exact same ▸ List.mem_cons_self
      · exact List.mem_cons_of_mem _ (ih later)
    | keep items =>
      rw [join] at mem
      refine List.mem_cons_of_mem _ (ih ?_)
      split at mem
      · rename_i isJoin
        rw [isJoin]
        exact List.mem_cons_of_mem _ ((List.mem_cons.1 mem).resolve_left (by simp))
      · exact (List.mem_cons.1 mem).resolve_left (by simp)

theorem not_mem_of_mem_edits (mem : .change before after ∈ edits isAnchor old new) :
    ∀ item ∈ before, isAnchor item = true → item ∉ after :=
  not_mem_of_mem_split (Nat.lt_succ_self _) (mem_of_mem_join mem)

end Changes

namespace Row

/-- The kind of a row tells how its sides relate. -/
structure Tells (row : Row) : Prop where
  equal : row.kind = .equal ↔ ∃ line, row.old = some line ∧ row.new = some line
  changed : row.kind = .changed ↔ ∃ line other, row.old = some line ∧ row.new = some other ∧ line ≠ other
  removed : row.kind = .removed ↔ (∃ line, row.old = some line) ∧ row.new = none
  added : row.kind = .added ↔ row.old = none ∧ ∃ line, row.new = some line

theorem tells_equal (line : String) : Tells ⟨.equal, some line, some line⟩ := by
  constructor <;> simp

theorem tells_changed {line other : String} (differ : line ≠ other) : Tells ⟨.changed, some line, some other⟩ := by
  constructor <;> simp [differ, Ne.symm differ]

theorem tells_removed (line : String) : Tells ⟨.removed, some line, none⟩ := by
  constructor <;> simp

theorem tells_added (line : String) : Tells ⟨.added, none, some line⟩ := by
  constructor <;> simp

/-- Sides that share no line are paired off without telling anything that is not so. -/
theorem tells_of_mem_pair {old new : List String} (apart : ∀ line ∈ old, line ∉ new) {row : Row}
    (mem : row ∈ pair old new) : row.Tells := by
  induction old generalizing new with
  | nil =>
    cases new with
    | nil => cases mem
    | cons first rest =>
      obtain ⟨line, -, rfl⟩ := List.mem_map.1 mem
      exact tells_added line
  | cons line old ih =>
    cases new with
    | nil =>
      obtain ⟨line, -, rfl⟩ := List.mem_map.1 mem
      exact tells_removed line
    | cons other new =>
      obtain ⟨here, apart⟩ := List.forall_mem_cons.1 apart
      rcases List.mem_cons.1 mem with rfl | later
      · refine tells_changed ?_
        rintro rfl
        exact here List.mem_cons_self
      · exact ih (fun line isOld isNew => apart line isOld (List.mem_cons_of_mem _ isNew)) later

/-- A side of rows that show some lines on it are those lines. -/
theorem filterMap_map_some {row : String → Row} {side : Row → Option String}
    (shows : ∀ line, side (row line) = some line) (lines : List String) : (lines.map row).filterMap side = lines := by
  induction lines with
  | nil => rfl
  | cons line lines ih => rw [List.map_cons, List.filterMap_cons_some (shows line), ih]

theorem filterMap_map_none {row : String → Row} {side : Row → Option String}
    (lacks : ∀ line, side (row line) = none) (lines : List String) : (lines.map row).filterMap side = [] := by
  induction lines with
  | nil => rfl
  | cons line lines ih => rw [List.map_cons, List.filterMap_cons_none (lacks line), ih]

theorem sides_pair (old new : List String) :
    (pair old new).filterMap Row.old = old ∧ (pair old new).filterMap Row.new = new := by
  induction old generalizing new with
  | nil =>
    cases new with
    | nil => exact ⟨rfl, rfl⟩
    | cons line new =>
      exact ⟨filterMap_map_none (fun _ => rfl) (line :: new), filterMap_map_some (fun _ => rfl) (line :: new)⟩
  | cons line old ih =>
    cases new with
    | nil =>
      exact ⟨filterMap_map_some (fun _ => rfl) (line :: old), filterMap_map_none (fun _ => rfl) (line :: old)⟩
    | cons other new =>
      obtain ⟨isOld, isNew⟩ := ih new
      simp [pair, isOld, isNew]

theorem sides_ofEdit (edit : Edit String) :
    (ofEdit edit).filterMap Row.old = edit.old ∧ (ofEdit edit).filterMap Row.new = edit.new := by
  cases edit with
  | keep lines => exact ⟨filterMap_map_some (fun _ => rfl) lines, filterMap_map_some (fun _ => rfl) lines⟩
  | change old new => exact sides_pair old new

/-- The sides of the rows are the lines of the texts. -/
theorem sides_ofTexts (old new : String) :
    (ofTexts old new).filterMap Row.old = Text.lineBodies old ∧
      (ofTexts old new).filterMap Row.new = Text.lineBodies new := by
  obtain ⟨isOld, isNew⟩ := flatMap_edits (fun _ => true) (Text.lineBodies old) (Text.lineBodies new)
  rw [ofTexts, List.filterMap_flatMap, List.filterMap_flatMap]
  simp only [sides_ofEdit]
  exact ⟨isOld, isNew⟩

theorem tells_of_mem_ofTexts {old new : String} {row : Row} (mem : row ∈ ofTexts old new) : row.Tells := by
  obtain ⟨edit, isEdit, isRow⟩ := List.mem_flatMap.1 mem
  cases edit with
  | keep lines =>
    obtain ⟨line, -, rfl⟩ := List.mem_map.1 isRow
    exact tells_equal line
  | change before after =>
    exact tells_of_mem_pair (fun line isOld => not_mem_of_mem_edits isEdit line isOld rfl) isRow

/-- Texts side by side lose no line and invent none: every row tells how its sides relate, and all rows are equal just
where the texts have the same lines. -/
theorem ofTexts_lossless (old new : String) :
    let rows := ofTexts old new
    rows.filterMap Row.old = Text.lineBodies old ∧ rows.filterMap Row.new = Text.lineBodies new ∧
      (∀ row ∈ rows, row.Tells) ∧
      ((∀ row ∈ rows, row.kind = .equal) ↔ Text.lineBodies old = Text.lineBodies new) := by
  intro rows
  obtain ⟨isOld, isNew⟩ := sides_ofTexts old new
  refine ⟨isOld, isNew, fun row => tells_of_mem_ofTexts, ?_⟩
  have differ := not_congr (exists_row_iff old new)
  simpa only [not_exists, not_and, Decidable.not_not] using differ

example : ofTexts "a\nb\nc\nd" "x\na\ny\nd\r\n" =
    [⟨.added, none, some "x"⟩, ⟨.equal, some "a", some "a"⟩, ⟨.changed, some "b", some "y"⟩,
      ⟨.removed, some "c", none⟩, ⟨.equal, some "d", some "d"⟩] := by
  decide

end Row
end Flowchart.Diff
