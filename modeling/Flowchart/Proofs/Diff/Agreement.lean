import Flowchart.Diff.Patch
import Flowchart.Proofs.Diff.Edits
import Flowchart.Proofs.Text.Trimming
import Flowchart.Repair

/-!
What counts as a change of a text: its rows differ if its lines do apart from their ends, its patch is not empty
if its lines do with their ends, a line feed at the end of the text being supplied, and a suggestion is a change
if it is another text.
-/
namespace Flowchart
namespace Diff

section Rows

theorem kind_of_mem_pair {old new : List String} {row : Row} (mem : row ∈ Row.pair old new) : row.kind ≠ .equal := by
  induction old generalizing new with
  | nil =>
    cases new with
    | nil => cases mem
    | cons first rest =>
      obtain ⟨line, -, rfl⟩ := List.mem_map.1 mem
      exact nofun
  | cons line old ih =>
    cases new with
    | nil =>
      obtain ⟨line, -, rfl⟩ := List.mem_map.1 mem
      exact nofun
    | cons other new =>
      rcases List.mem_cons.1 mem with rfl | mem
      · exact nofun
      · exact ih mem

theorem pair_eq_nil {old new : List String} (none : Row.pair old new = []) : old = [] ∧ new = [] := by
  cases old <;> cases new <;> simp_all [Row.pair]

/-- There is a row that is not equal if and only if the texts differ in their lines. -/
theorem exists_row_iff (old new : String) :
    (∃ row ∈ Row.ofTexts old new, row.kind ≠ .equal) ↔ Text.lineBodies old ≠ Text.lineBodies new := by
  constructor
  · rintro ⟨row, mem, differs⟩
    obtain ⟨edit, isEdit, isRow⟩ := List.mem_flatMap.1 mem
    refine (exists_change_iff (fun _ => true) _ _).1 ⟨edit, isEdit, ?_⟩
    cases edit with
    | change => rfl
    | keep lines =>
      obtain ⟨line, -, rfl⟩ := List.mem_map.1 isRow
      exact absurd rfl differs
  · intro differ
    refine Classical.byContradiction fun none => differ (eq_of_sides (fun _ => true) fun edit isEdit => ?_)
    cases edit with
    | keep => rfl
    | change before after =>
      have noRow : Row.pair before after = [] := by
        refine List.eq_nil_iff_forall_not_mem.2 fun row mem => none ?_
        exact ⟨row, List.mem_flatMap.2 ⟨_, isEdit, mem⟩, kind_of_mem_pair mem⟩
      obtain ⟨rfl, rfl⟩ := pair_eq_nil noRow
      rfl

end Rows

section Patch

theorem isChange_keepFirst (count : Nat) (placed : Placed) :
    (placed.keepFirst count).edit.isChange = placed.edit.isChange := by
  obtain ⟨oldStart, newStart, edit⟩ := placed
  cases edit <;> rfl

theorem isChange_keepLast (count : Nat) (placed : Placed) :
    (placed.keepLast count).edit.isChange = placed.edit.isChange := by
  obtain ⟨oldStart, newStart, edit⟩ := placed
  cases edit <;> rfl

/-- Some edit of these is a change. -/
def hasChange (edits : List Placed) : Bool :=
  edits.any (·.edit.isChange)

theorem hasChange_ofEdits (oldStart newStart : Nat) (edits : List (Edit String)) :
    hasChange (Placed.ofEdits oldStart newStart edits) = edits.any (·.isChange) := by
  induction edits generalizing oldStart newStart with
  | nil => rfl
  | cons edit edits ih => rw [Placed.ofEdits, hasChange, List.any_cons, List.any_cons, ← ih]; rfl

theorem hasChange_reverse (edits : List Placed) : hasChange edits.reverse = hasChange edits :=
  List.any_reverse

theorem hasChange_cons (placed : Placed) (edits : List Placed) :
    hasChange (placed :: edits) = (placed.edit.isChange || hasChange edits) := rfl

theorem hasChange_trimEnds (edits : List Placed) : hasChange (Placed.trimEnds edits) = hasChange edits := by
  cases edits with
  | nil => rfl
  | cons first rest =>
    have same : hasChange (first.keepLast context :: rest) = hasChange (first :: rest) := by
      rw [hasChange_cons, hasChange_cons, isChange_keepLast]
    rw [Placed.trimEnds, ← same, ← hasChange_reverse (first.keepLast context :: rest)]
    cases (first.keepLast context :: rest).reverse with
    | nil => rfl
    | cons last rest => rw [hasChange_reverse, hasChange_cons, hasChange_cons, isChange_keepFirst]

theorem any_groupsFrom (done edits : List Placed) :
    (Placed.groupsFrom done edits).any hasChange = (hasChange done || hasChange edits) := by
  induction edits generalizing done with
  | nil => simp [Placed.groupsFrom, hasChange]
  | cons placed edits ih =>
    rw [Placed.groupsFrom]
    split
    · simp only [List.any_cons, ih, hasChange_reverse, hasChange_cons, isChange_keepFirst, isChange_keepLast]
      cases placed.edit.isChange <;> simp [hasChange]
    · rw [ih, hasChange_cons, hasChange_cons]
      cases placed.edit.isChange <;> simp

theorem groups_eq_nil (edits : List Placed) : Placed.groups edits = [] ↔ hasChange edits = false := by
  have any : (Placed.groupsFrom [] (Placed.trimEnds edits)).any hasChange = hasChange edits :=
    (any_groupsFrom [] (Placed.trimEnds edits)).trans (hasChange_trimEnds edits)
  rw [Placed.groups, List.filter_eq_nil_iff, ← any, List.any_eq_false]
  rfl

/-- The text with a line feed at its end, which is supplied if it has none. -/
def ended (text : String) : String :=
  if text.toList.getLast? = some '\n' then text else text.push '\n'

theorem endedLines_inj {old new : String} : endedLines old = endedLines new ↔ ended old = ended new := by
  have chars (text : String) : (endedLines text).flatMap String.toList = (ended text).toList := by
    calc (endedLines text).flatMap String.toList
      _ = (Text.splitLines (ended text).toList).flatMap fun line => line.text.toList := List.flatMap_map ..
      _ = (Text.splitLines (ended text).toList).flatMap Text.Line.chars := by
        simp only [Text.Line.text, String.toList_ofList]
      _ = (ended text).toList := Text.flatMap_chars_splitLines _
  constructor
  · intro same
    rw [← String.toList_inj, ← chars, ← chars, same]
  · intro same
    show (Text.splitLines (ended old).toList).map _ = (Text.splitLines (ended new).toList).map _
    rw [same]

/-- The patch of two texts is empty if and only if they have the same lines, a line feed at the end supplied. -/
theorem patch_eq_empty_iff (old new name : String) : patch old new name = "" ↔ ended old = ended new := by
  have changes := exists_change_iff (isRare (endedLines new)) (endedLines old) (endedLines new)
  have noGroups : Placed.groups (Placed.ofEdits 0 0
      (edits (isRare (endedLines new)) (endedLines old) (endedLines new))) = [] ↔ ended old = ended new := by
    rw [groups_eq_nil, hasChange_ofEdits, ← endedLines_inj, ← Bool.not_eq_true, List.any_eq_true, changes,
      Decidable.not_not]
  rw [← noGroups]
  -- Not by the equation of the definition, which takes long to derive.
  delta patch
  dsimp only
  cases Placed.groups _ with
  | nil => simp
  | cons group groups =>
    refine iff_of_false ?_ (List.cons_ne_nil _ _)
    simp only [String.join_cons, String.append_eq_empty_iff]
    intro empty
    have start : toString "--- " ≠ "" := by decide
    exact start empty.1.1.1.1.1

theorem ended_of_getLast? {text : String} (ends : text.toList.getLast? = some '\n') : ended text = text :=
  if_pos ends

theorem ended_of_not_getLast? {text : String} (open_ : text.toList.getLast? ≠ some '\n') :
    ended text = text.push '\n' :=
  if_neg open_

/-- Texts that count as one text differ at most in a line feed at the end. -/
theorem ended_eq_iff {old new : String} : ended old = ended new ↔ old = new ∨
    new.toList.getLast? ≠ some '\n' ∧ old = new.push '\n' ∨ old.toList.getLast? ≠ some '\n' ∧ new = old.push '\n' := by
  have pushed (text : String) : (text.push '\n').toList.getLast? = some '\n' := by
    rw [String.toList_push, List.getLast?_concat]
  constructor
  · intro same
    by_cases oldEnds : old.toList.getLast? = some '\n' <;> by_cases newEnds : new.toList.getLast? = some '\n'
    · rw [ended_of_getLast? oldEnds, ended_of_getLast? newEnds] at same
      exact .inl same
    · rw [ended_of_getLast? oldEnds, ended_of_not_getLast? newEnds] at same
      exact .inr (.inl ⟨newEnds, same⟩)
    · rw [ended_of_not_getLast? oldEnds, ended_of_getLast? newEnds] at same
      exact .inr (.inr ⟨oldEnds, same.symm⟩)
    · rw [ended_of_not_getLast? oldEnds, ended_of_not_getLast? newEnds, ← String.toList_inj,
        String.toList_push, String.toList_push] at same
      exact .inl (String.toList_inj.1 (List.append_cancel_right same))
  · rintro (rfl | ⟨newOpen, rfl⟩ | ⟨oldOpen, rfl⟩)
    · rfl
    · rw [ended_of_getLast? (pushed new), ended_of_not_getLast? newOpen]
    · rw [ended_of_getLast? (pushed old), ended_of_not_getLast? oldOpen]

end Patch
end Diff

namespace Suggestion

theorem changed_iff (source text : String) : (Suggestion.ofTexts source text).changed = true ↔ source ≠ text :=
  bne_iff_ne

/-- An answer of the service never ends in a line feed, so a source that does is always to be changed. -/
theorem changed_of_ofAnswer {answer : Except String (Option String)} {source text : String}
    (answered : Repair.ofAnswer answer = .ok text) (ends : source.toList.getLast? = some '\n') :
    (Suggestion.ofTexts source text).changed = true := by
  rw [changed_iff]
  rintro rfl
  cases answer with
  | error reason => cases answered
  | ok answer =>
    rw [Repair.ofAnswer] at answered
    split at answered
    · cases answered
    · rw [← Except.ok.inj answered, Repair.clean, String.toList_ofList] at ends
      exact absurd ((Text.isTrimmed_trimChars _).last _ ends) (by decide)

theorem ne_push (text : String) : text ≠ text.push '\n' := by
  intro isLonger
  have sameLength := congrArg String.length isLonger
  rw [String.length_push] at sameLength
  omega

/-- A suggestion counts as a change when it is another text at all. Its rows and its patch show that, unless
the texts differ in the ends of their lines only, or in a line feed at the end. -/
theorem changed_agrees_iff (source text name : String) :
    let suggestion := Suggestion.ofTexts source text
    ((suggestion.changed = true ↔ ∃ row ∈ suggestion.rows, row.kind ≠ .equal) ∧
        (suggestion.changed = true ↔ Diff.patch source text name ≠ "") ↔
      source = text ∨
        Text.lineBodies source ≠ Text.lineBodies text ∧ Diff.ended source ≠ Diff.ended text) ∧
    (suggestion.changed = true ∧ Diff.patch source text name = "" ↔
      text.toList.getLast? ≠ some '\n' ∧ source = text.push '\n' ∨
        source.toList.getLast? ≠ some '\n' ∧ text = source.push '\n') := by
  intro suggestion
  have changed : suggestion.changed = true ↔ source ≠ text := changed_iff source text
  have rows : (∃ row ∈ suggestion.rows, row.kind ≠ .equal) ↔ Text.lineBodies source ≠ Text.lineBodies text :=
    Diff.exists_row_iff source text
  have patch := Diff.patch_eq_empty_iff source text name
  rw [changed, rows, Ne, Ne, Ne, patch]
  by_cases same : source = text
  · subst same
    refine ⟨by simp, iff_of_false (fun both => both.1 rfl) ?_⟩
    rintro (⟨-, isLonger⟩ | ⟨-, isLonger⟩)
    · exact ne_push source isLonger
    · exact ne_push source isLonger
  · refine ⟨by simp only [same, not_false_eq_true, true_iff, false_or], ?_⟩
    rw [Diff.ended_eq_iff]
    simp only [same, not_false_eq_true, true_and, false_or]

theorem changed_finalNewline :
    let suggestion := Suggestion.ofTexts "graph TD\nA -->\n" "graph TD\nA -->"
    suggestion.changed = true ∧ (¬∃ row ∈ suggestion.rows, row.kind ≠ .equal) ∧
      Diff.patch "graph TD\nA -->\n" "graph TD\nA -->" "flow.mmd" = "" := by
  refine ⟨by decide, ?_, ?_⟩
  · refine mt (Diff.exists_row_iff _ _).1 ?_
    decide
  · rw [Diff.patch_eq_empty_iff]
    decide

end Suggestion
end Flowchart
