import Flowchart.Proofs.Diff.Matching

/-!
The edits from one list to another: their sides are the two lists, and nothing is changed if the lists are equal,
whichever items a match may start from.
-/
namespace Flowchart.Diff

variable {α : Type} {isAnchor : α → Bool} {items old new : List α} {oldEnd : Nat}

/-- How many anchors in a row end in front of a place. -/
def anchorsBefore (isAnchor : α → Bool) (items : List α) : Nat → Nat
  | 0 => 0
  | place + 1 => if items[place]?.any isAnchor then anchorsBefore isAnchor items place + 1 else 0

/-- Of the stretches of a list and itself that end at a place of it, the one at the same place is as long as
there are anchors in a row in front of the place. No other one is longer than the anchors in front of either
end. -/
structure SelfLengths (isAnchor : α → Bool) (items : List α) (oldEnd : Nat) (lengths : List Nat) : Prop where
  le_new : ∀ (place length : Nat), lengths[place]? = some length → length ≤ anchorsBefore isAnchor items (place + 1)
  le_old : ∀ (place length : Nat), lengths[place]? = some length → length ≤ anchorsBefore isAnchor items oldEnd
  diagonal : ∀ place : Nat, place + 1 = oldEnd → lengths[place]? = some (anchorsBefore isAnchor items oldEnd)

theorem selfLengths_nil : SelfLengths isAnchor items 0 [] where
  le_new _ _ isLength := by cases isLength
  le_old _ _ isLength := by cases isLength
  diagonal _ isEnd := by cases isEnd

theorem SelfLengths.inFront {before : List Nat} (self : SelfLengths isAnchor items oldEnd before)
    (place : Nat) :
    (0 :: before).getD place 0 ≤ anchorsBefore isAnchor items place ∧
      (0 :: before).getD place 0 ≤ anchorsBefore isAnchor items oldEnd ∧
      (place = oldEnd → (0 :: before).getD place 0 = anchorsBefore isAnchor items oldEnd) := by
  cases place with
  | zero =>
    refine ⟨Nat.zero_le _, Nat.zero_le _, ?_⟩
    rintro rfl
    rfl
  | succ place =>
    rw [List.getD_eq_getElem?_getD, List.getElem?_cons_succ]
    refine ⟨?_, ?_, fun isEnd => ?_⟩
    · cases isLength : before[place]? with
      | none => exact Nat.zero_le _
      | some length => exact self.le_new place length isLength
    · cases isLength : before[place]? with
      | none => exact Nat.zero_le _
      | some length => exact self.le_old place length isLength
    · rw [self.diagonal place isEnd]
      rfl

theorem anchorsBefore_succ {place : Nat} {item : α} (isItem : items[place]? = some item) :
    anchorsBefore isAnchor items (place + 1) =
      if isAnchor item then anchorsBefore isAnchor items place + 1 else 0 := by
  rw [anchorsBefore, isItem]
  rfl

/-- A match of a list with itself at the same place in both, no shorter than the anchors in a row in front of
the places so far. -/
def IsDiagonal (isAnchor : α → Bool) (items : List α) (oldEnd : Nat) (best : Match) : Prop :=
  best.oldStart = best.newStart ∧ ∀ place < oldEnd, anchorsBefore isAnchor items (place + 1) ≤ best.length

theorem isDiagonal_betterAt {lengths : List Nat} {best : Match}
    (self : SelfLengths isAnchor items (oldEnd + 1) lengths) (isDiagonal : IsDiagonal isAnchor items oldEnd best) :
    IsDiagonal isAnchor items (oldEnd + 1) (betterAt (oldEnd + 1) 1 best lengths) := by
  obtain ⟨same, most⟩ := isDiagonal
  have onDiagonal := self.diagonal oldEnd rfl
  have mem := List.mem_of_getElem? onDiagonal
  rcases betterAt_cases (oldEnd + 1) 1 best lengths with ⟨isBest, bound⟩ |
    ⟨place, length, isLength, longer, isBetter, isFirst, bound⟩
  · rw [isBest]
    refine ⟨same, fun place inFront => ?_⟩
    rcases Nat.lt_succ_iff_lt_or_eq.1 inFront with early | rfl
    · exact most place early
    · exact bound _ mem
  · -- Off the diagonal no stretch is better: in front of it the match so far is as long, and behind it the
    -- stretch on the diagonal came first and is as long.
    have notBefore : ¬place < oldEnd := fun early =>
      absurd (Nat.le_trans (self.le_new place length isLength) (most place early)) (Nat.not_le_of_lt longer)
    have notBehind : ¬oldEnd < place := fun late =>
      absurd (self.le_old place length isLength) (Nat.not_le_of_lt (isFirst oldEnd late _ onDiagonal))
    obtain rfl : place = oldEnd := by omega
    rw [isBetter]
    refine ⟨by dsimp only; omega, fun earlier inFront => ?_⟩
    rcases Nat.lt_succ_iff_lt_or_eq.1 inFront with early | rfl
    · exact Nat.le_trans (most earlier early) (Nat.le_of_lt longer)
    · exact bound _ mem

variable [DecidableEq α]

theorem selfLengths_stretchesAt {before : List Nat} {item : α}
    (self : SelfLengths isAnchor items oldEnd before) (isItem : items[oldEnd]? = some item) :
    SelfLengths isAnchor items (oldEnd + 1) (stretchesAt isAnchor item 0 items before) := by
  have bound (place length : Nat)
      (isLength : (stretchesAt isAnchor item 0 items before)[place]? = some length) :
      length ≤ anchorsBefore isAnchor items (place + 1) ∧ length ≤ anchorsBefore isAnchor items (oldEnd + 1) := by
    rw [getElem?_stretchesAt, Option.map_eq_some_iff] at isLength
    obtain ⟨other, isOther, rfl⟩ := isLength
    obtain ⟨leNew, leOld, -⟩ := self.inFront place
    split
    · rename_i goesOn
      simp only [Bool.and_eq_true, decide_eq_true_eq] at goesOn
      obtain ⟨rfl, anchors⟩ := goesOn
      rw [anchorsBefore_succ isOther, anchorsBefore_succ isItem, if_pos anchors, if_pos anchors]
      exact ⟨Nat.succ_le_succ leNew, Nat.succ_le_succ leOld⟩
    · exact ⟨Nat.zero_le _, Nat.zero_le _⟩
  refine ⟨fun place length isLength => (bound place length isLength).1,
    fun place length isLength => (bound place length isLength).2, ?_⟩
  intro place isEnd
  obtain rfl : place = oldEnd := Nat.succ.inj isEnd
  rw [getElem?_stretchesAt, isItem, (self.inFront place).2.2 rfl, anchorsBefore_succ isItem]
  simp

theorem isDiagonal_longestFrom {done rest : List α} {before : List Nat} {best : Match}
    (self : SelfLengths isAnchor (done ++ rest) done.length before)
    (isDiagonal : IsDiagonal isAnchor (done ++ rest) done.length best) :
    IsDiagonal isAnchor (done ++ rest) (done ++ rest).length
      (longestFrom isAnchor (done ++ rest) (done.length + 1) before best rest) := by
  induction rest generalizing done before best with
  | nil => rwa [List.append_nil] at isDiagonal ⊢
  | cons item rest ih =>
    have isItem : (done ++ item :: rest)[done.length]? = some item := by
      rw [List.getElem?_append_right (Nat.le_refl _), Nat.sub_self, List.getElem?_cons_zero]
    have next := selfLengths_stretchesAt self isItem
    have better := isDiagonal_betterAt next isDiagonal
    have shifted : done ++ item :: rest = (done ++ [item]) ++ rest := by rw [List.append_assoc]; rfl
    have isLength : done.length + 1 = (done ++ [item]).length := by rw [List.length_append]; rfl
    rw [longestFrom]
    rw [shifted, isLength] at next better ⊢
    exact ih next better

/-- The longest common stretch of a list and itself is the list. -/
theorem longest_self (isAnchor : α → Bool) (items : List α) :
    longest isAnchor items items = ⟨0, 0, items.length⟩ := by
  have start : SelfLengths isAnchor ([] ++ items) ([] : List α).length [] := selfLengths_nil
  have none : IsDiagonal isAnchor ([] ++ items) ([] : List α).length {} :=
    ⟨rfl, fun _ early => absurd early (Nat.not_lt_zero _)⟩
  have same : (longestFrom isAnchor items 1 [] {} items).oldStart =
      (longestFrom isAnchor items 1 [] {} items).newStart :=
    (isDiagonal_longestFrom start none).1
  have isMatch := isMatch_longestAnchored isAnchor items items
  rw [longest]
  generalize longestFrom isAnchor items 1 [] {} items = found at same isMatch ⊢
  obtain ⟨oldStart, newStart, length⟩ := found
  obtain ⟨oldFront, newFront, middle, oldBack, newBack, isOld, isNew, rfl, rfl, rfl⟩ := isMatch
  obtain ⟨rfl, sameBack⟩ := List.append_inj (isOld.symm.trans isNew) same
  obtain rfl := List.append_cancel_left sameBack
  have whole := extend_eq oldFront oldFront middle oldBack oldBack
  rw [← isOld] at whole
  rw [whole, commonLength_self, commonLength_self, List.length_reverse, Nat.sub_self, isOld,
    List.length_append, List.length_append, Nat.add_assoc]

/-- Two lists are split at what they share. They are left as they are only if no anchor is in both. -/
theorem split_cases (isAnchor : α → Bool) (fuel : Nat) (old new : List α) :
    (old = [] ∧ new = [] ∧ split isAnchor (fuel + 1) old new = []) ∨
      (split isAnchor (fuel + 1) old new = [.change old new] ∧
        ∀ item ∈ old, isAnchor item = true → item ∉ new) ∨
      ∃ oldFront newFront items oldBack newBack, old = oldFront ++ (items ++ oldBack) ∧
        new = newFront ++ (items ++ newBack) ∧ items ≠ [] ∧ split isAnchor (fuel + 1) old new =
          split isAnchor fuel oldFront newFront ++ .keep items :: split isAnchor fuel oldBack newBack := by
  rw [split]
  by_cases bothEmpty : (old.isEmpty && new.isEmpty) = true
  · rw [if_pos bothEmpty]
    simp only [Bool.and_eq_true, List.isEmpty_iff] at bothEmpty
    exact .inl ⟨bothEmpty.1, bothEmpty.2, rfl⟩
  rw [if_neg bothEmpty]
  by_cases oneEmpty : (old.isEmpty || new.isEmpty) = true
  · rw [if_pos oneEmpty]
    refine .inr (.inl ⟨rfl, fun item isOld _ isNew => ?_⟩)
    simp only [Bool.or_eq_true, List.isEmpty_iff] at oneEmpty
    rcases oneEmpty with rfl | rfl
    · cases isOld
    · cases isNew
  rw [if_neg oneEmpty]
  by_cases nothing : (longest isAnchor old new).length = 0
  · simp only [if_pos nothing]
    exact .inr (.inl ⟨trivial, fun item isOld anchors => not_mem_of_longest nothing isOld anchors⟩)
  simp only [if_neg nothing]
  have isMatch := isMatch_longest isAnchor old new
  generalize longest isAnchor old new = found at isMatch nothing
  obtain ⟨oldStart, newStart, length⟩ := found
  obtain ⟨oldFront, newFront, items, oldBack, newBack, rfl, rfl, rfl, rfl, rfl⟩ := isMatch
  refine .inr (.inr ⟨oldFront, newFront, items, oldBack, newBack, rfl, rfl, ?_, ?_⟩)
  · rintro rfl
    exact nothing rfl
  · simp only [List.take_left, List.drop_left, drop_stretch]

/-- The old sides of the edits are the old list, and the new sides the new one. -/
theorem flatMap_split (isAnchor : α → Bool) (fuel : Nat) (old new : List α) :
    (split isAnchor fuel old new).flatMap Edit.old = old ∧
      (split isAnchor fuel old new).flatMap Edit.new = new := by
  induction fuel generalizing old new with
  | zero => exact ⟨List.append_nil _, List.append_nil _⟩
  | succ fuel ih =>
    rcases split_cases isAnchor fuel old new with ⟨rfl, rfl, isSplit⟩ | ⟨isSplit, -⟩ |
      ⟨oldFront, newFront, items, oldBack, newBack, rfl, rfl, -, isSplit⟩
    · rw [isSplit]
      exact ⟨rfl, rfl⟩
    · rw [isSplit]
      exact ⟨List.append_nil _, List.append_nil _⟩
    · obtain ⟨oldInFront, newInFront⟩ := ih oldFront newFront
      obtain ⟨oldBehind, newBehind⟩ := ih oldBack newBack
      rw [isSplit, List.flatMap_append, List.flatMap_append, List.flatMap_cons, List.flatMap_cons,
        oldInFront, newInFront, oldBehind, newBehind]
      exact ⟨rfl, rfl⟩

omit [DecidableEq α] in
theorem flatMap_join (edits : List (Edit α)) :
    (join edits).flatMap Edit.old = edits.flatMap Edit.old ∧
      (join edits).flatMap Edit.new = edits.flatMap Edit.new := by
  induction edits with
  | nil => exact ⟨rfl, rfl⟩
  | cons edit edits ih =>
    obtain ⟨old, new⟩ := ih
    rw [List.flatMap_cons, List.flatMap_cons, ← old, ← new]
    cases edit with
    | change => exact ⟨rfl, rfl⟩
    | keep items =>
      rw [join]
      split
      · rename_i more rest isJoin
        rw [isJoin]
        simp [Edit.old, Edit.new]
      · exact ⟨rfl, rfl⟩

theorem flatMap_edits (isAnchor : α → Bool) (old new : List α) :
    (edits isAnchor old new).flatMap Edit.old = old ∧ (edits isAnchor old new).flatMap Edit.new = new := by
  obtain ⟨oldJoined, newJoined⟩ := flatMap_join (split isAnchor (old.length + 1) old new)
  obtain ⟨isOld, isNew⟩ := flatMap_split isAnchor (old.length + 1) old new
  exact ⟨oldJoined.trans isOld, newJoined.trans isNew⟩

theorem edits_self (isAnchor : α → Bool) (items : List α) :
    edits isAnchor items items = if items = [] then [] else [.keep items] := by
  cases items with
  | nil => rfl
  | cons item items =>
    have none : split isAnchor (items.length + 1) ([] : List α) [] = [] := rfl
    rw [edits, split, longest_self]
    simp [none, join]

theorem eq_of_sides (isAnchor : α → Bool) (same : ∀ edit ∈ edits isAnchor old new, edit.old = edit.new) :
    old = new := by
  obtain ⟨isOld, isNew⟩ := flatMap_edits isAnchor old new
  calc old = (edits isAnchor old new).flatMap Edit.old := isOld.symm
    _ = (edits isAnchor old new).flatMap Edit.new := by
      rw [List.flatMap_def, List.flatMap_def, List.map_congr_left same]
    _ = new := isNew

/-- Lists differ if and only if there is a change from one to the other. -/
theorem exists_change_iff (isAnchor : α → Bool) (old new : List α) :
    (∃ edit ∈ edits isAnchor old new, edit.isChange = true) ↔ old ≠ new := by
  constructor
  · rintro ⟨edit, mem, isChange⟩ rfl
    rw [edits_self] at mem
    split at mem
    · cases mem
    · rw [List.mem_singleton.1 mem] at isChange
      cases isChange
  · intro differ
    refine Classical.byContradiction fun none => differ (eq_of_sides isAnchor fun edit mem => ?_)
    cases edit with
    | keep => rfl
    | change before after => exact absurd ⟨_, mem, rfl⟩ none

end Flowchart.Diff
