import Flowchart.Diff

/-!
The search for the longest common stretch of two lists: the lengths of the stretches that end at a place, the
best of them, and that what is found is the same in both lists.
-/
namespace Flowchart.Diff

variable {α : Type} {old new : List α} {oldStart newStart length : Nat}

/-- The stretch is the same in both lists. -/
def IsMatch (old new : List α) (found : Match) : Prop :=
  ∃ oldFront newFront items oldBack newBack, old = oldFront ++ (items ++ oldBack) ∧
    new = newFront ++ (items ++ newBack) ∧ oldFront.length = found.oldStart ∧
    newFront.length = found.newStart ∧ items.length = found.length

theorem isMatch_empty (inOld : oldStart ≤ old.length) (inNew : newStart ≤ new.length) :
    IsMatch old new ⟨oldStart, newStart, 0⟩ :=
  ⟨old.take oldStart, new.take newStart, [], old.drop oldStart, new.drop newStart,
    (List.take_append_drop ..).symm, (List.take_append_drop ..).symm,
    List.length_take_of_le inOld, List.length_take_of_le inNew, rfl⟩

theorem drop_stretch (front items back : List α) :
    (front ++ (items ++ back)).drop (front.length + items.length) = back := by
  rw [← List.append_assoc, ← List.length_append, List.drop_left]

theorem exists_cons_of_getElem? {front items back : List α} {item : α}
    (isNext : (front ++ (items ++ back))[front.length + items.length]? = some item) :
    ∃ rest, back = item :: rest := by
  rw [← List.append_assoc, List.getElem?_append_right (Nat.le_of_eq (List.length_append ..)),
    List.length_append, Nat.sub_self] at isNext
  cases back with
  | nil => cases isNext
  | cons first rest => exact ⟨rest, congrArg (· :: rest) (Option.some.inj isNext)⟩

/-- A stretch that is followed by the same item in both lists. -/
theorem IsMatch.snoc {item : α} (isMatch : IsMatch old new ⟨oldStart, newStart, length⟩)
    (inOld : old[oldStart + length]? = some item) (inNew : new[newStart + length]? = some item) :
    IsMatch old new ⟨oldStart, newStart, length + 1⟩ := by
  obtain ⟨oldFront, newFront, items, oldBack, newBack, rfl, rfl, rfl, rfl, rfl⟩ := isMatch
  obtain ⟨oldRest, rfl⟩ := exists_cons_of_getElem? inOld
  obtain ⟨newRest, rfl⟩ := exists_cons_of_getElem? inNew
  exact ⟨oldFront, newFront, items ++ [item], oldRest, newRest, by simp, by simp, rfl, rfl, by simp⟩

/-- The better of a match and a stretch. -/
def better (oldEnd newEnd : Nat) (best : Match) (length : Nat) : Match :=
  if best.length < length then ⟨oldEnd - length, newEnd - length, length⟩ else best

theorem better_cases (oldEnd newEnd : Nat) (best : Match) (length : Nat) :
    better oldEnd newEnd best length = best ∧ length ≤ best.length ∨
      better oldEnd newEnd best length = ⟨oldEnd - length, newEnd - length, length⟩ ∧ best.length < length := by
  by_cases longer : best.length < length
  · exact .inr ⟨if_pos longer, longer⟩
  · exact .inl ⟨if_neg longer, Nat.le_of_not_lt longer⟩

/-- The better of a match and some stretches is the match or the first of the longest stretches. -/
theorem betterAt_cases (oldEnd newEnd : Nat) (best : Match) (lengths : List Nat) :
    betterAt oldEnd newEnd best lengths = best ∧ (∀ length ∈ lengths, length ≤ best.length) ∨
      ∃ place length, lengths[place]? = some length ∧ best.length < length ∧
        betterAt oldEnd newEnd best lengths = ⟨oldEnd - length, newEnd + place - length, length⟩ ∧
        (∀ earlier < place, ∀ other, lengths[earlier]? = some other → other < length) ∧
        ∀ other ∈ lengths, other ≤ length := by
  induction lengths generalizing newEnd best with
  | nil => exact .inl ⟨rfl, fun _ mem => absurd mem List.not_mem_nil⟩
  | cons first lengths ih =>
    have grows : best.length ≤ (better oldEnd newEnd best first).length ∧
        first ≤ (better oldEnd newEnd best first).length := by
      rcases better_cases oldEnd newEnd best first with ⟨same, short⟩ | ⟨same, long⟩
      · rw [same]
        exact ⟨Nat.le_refl _, short⟩
      · rw [same]
        exact ⟨Nat.le_of_lt long, Nat.le_refl _⟩
    have unfolded : betterAt oldEnd newEnd best (first :: lengths) =
        betterAt oldEnd (newEnd + 1) (better oldEnd newEnd best first) lengths := rfl
    rw [unfolded]
    rcases ih (newEnd + 1) (better oldEnd newEnd best first) with ⟨isBest, most⟩ |
      ⟨place, length, isLength, longer, isBest, isFirst, most⟩
    · rw [isBest]
      rcases better_cases oldEnd newEnd best first with ⟨same, short⟩ | ⟨same, long⟩
      · rw [same] at most ⊢
        exact .inl ⟨rfl, List.forall_mem_cons.2 ⟨short, most⟩⟩
      · rw [same] at most ⊢
        refine .inr ⟨0, first, rfl, long, rfl, fun _ early => absurd early (Nat.not_lt_zero _), ?_⟩
        exact List.forall_mem_cons.2 ⟨Nat.le_refl _, most⟩
    · refine .inr ⟨place + 1, length, isLength, Nat.lt_of_le_of_lt grows.1 longer, ?_, ?_, ?_⟩
      · rw [isBest, Nat.add_right_comm newEnd 1 place, Nat.add_assoc newEnd place 1]
      · intro earlier early other isOther
        cases earlier with
        | zero =>
          cases isOther
          exact Nat.lt_of_le_of_lt grows.2 longer
        | succ earlier => exact isFirst earlier (Nat.lt_of_succ_lt_succ early) other isOther
      · exact List.forall_mem_cons.2 ⟨Nat.le_trans grows.2 (Nat.le_of_lt longer), most⟩

/-- The better of a match and some stretches is as long as any of them. -/
theorem le_betterAt (oldEnd newEnd : Nat) (best : Match) (lengths : List Nat) :
    best.length ≤ (betterAt oldEnd newEnd best lengths).length ∧
      ∀ length ∈ lengths, length ≤ (betterAt oldEnd newEnd best lengths).length := by
  rcases betterAt_cases oldEnd newEnd best lengths with ⟨same, most⟩ | ⟨place, length, -, longer, isBetter, -, most⟩
  · rw [same]
    exact ⟨Nat.le_refl _, most⟩
  · rw [isBetter]
    exact ⟨Nat.le_of_lt longer, most⟩

/-- Each length is that of a stretch that ends behind so many items of the old list and at its place of the
new one. -/
def Ending (old new : List α) (oldEnd : Nat) (lengths : List Nat) : Prop :=
  ∀ place length, lengths[place]? = some length → ∃ oldStart newStart,
    oldStart + length = oldEnd ∧ newStart + length = place + 1 ∧ IsMatch old new ⟨oldStart, newStart, length⟩

theorem isMatch_betterAt {oldEnd : Nat} {best : Match} {lengths : List Nat} (isMatch : IsMatch old new best)
    (ending : Ending old new oldEnd lengths) : IsMatch old new (betterAt oldEnd 1 best lengths) := by
  rcases betterAt_cases oldEnd 1 best lengths with ⟨same, -⟩ | ⟨place, length, isLength, -, isBetter, -, -⟩
  · rw [same]
    exact isMatch
  · obtain ⟨oldStart, newStart, isOldEnd, isNewEnd, isMatch⟩ := ending place length isLength
    rw [isBetter, show oldEnd - length = oldStart by omega, show 1 + place - length = newStart by omega]
    exact isMatch

variable [DecidableEq α]

theorem commonLength_eq (first second : List α) :
    ∃ common firstRest secondRest, first = common ++ firstRest ∧ second = common ++ secondRest ∧
      common.length = commonLength first second := by
  induction first generalizing second with
  | nil => exact ⟨[], [], second, rfl, rfl, by rw [commonLength.eq_def]; rfl⟩
  | cons item first ih =>
    cases second with
    | nil => exact ⟨[], item :: first, [], rfl, rfl, by rw [commonLength.eq_def]; rfl⟩
    | cons other second =>
      rw [commonLength]
      by_cases same : item = other
      · obtain ⟨common, firstRest, secondRest, rfl, rfl, isLength⟩ := ih second
        exact ⟨item :: common, firstRest, secondRest, rfl, by rw [same]; rfl,
          by rw [if_pos same, ← isLength, List.length_cons]⟩
      · exact ⟨[], item :: first, other :: second, rfl, rfl, by rw [if_neg same]; rfl⟩

theorem commonLength_self (items : List α) : commonLength items items = items.length := by
  induction items with
  | nil => rfl
  | cons item items ih => rw [commonLength, if_pos rfl, ih, List.length_cons]

theorem extend_eq (oldFront newFront items oldBack newBack : List α) :
    extend (oldFront ++ (items ++ oldBack)) (newFront ++ (items ++ newBack))
        ⟨oldFront.length, newFront.length, items.length⟩ =
      ⟨oldFront.length - commonLength oldFront.reverse newFront.reverse,
        newFront.length - commonLength oldFront.reverse newFront.reverse,
        commonLength oldFront.reverse newFront.reverse + items.length + commonLength oldBack newBack⟩ := by
  simp only [extend, List.take_left, drop_stretch]

theorem isMatch_extend {found : Match} (isMatch : IsMatch old new found) :
    IsMatch old new (extend old new found) := by
  obtain ⟨oldFront, newFront, items, oldBack, newBack, rfl, rfl, isOldStart, isNewStart, isLength⟩ := isMatch
  rw [show found = ⟨oldFront.length, newFront.length, items.length⟩ by rw [isOldStart, isNewStart, isLength],
    extend_eq]
  obtain ⟨back, oldHead, newHead, isOldHead, isNewHead, isBack⟩ := commonLength_eq oldFront.reverse newFront.reverse
  obtain ⟨ahead, oldTail, newTail, rfl, rfl, isAhead⟩ := commonLength_eq oldBack newBack
  rw [List.reverse_eq_iff, List.reverse_append] at isOldHead isNewHead
  refine ⟨oldHead.reverse, newHead.reverse, back.reverse ++ items ++ ahead, oldTail, newTail, ?_, ?_, ?_, ?_, ?_⟩
  · rw [isOldHead]
    simp
  · rw [isNewHead]
    simp
  · rw [← isBack, isOldHead]
    simp
  · rw [← isBack, isNewHead]
    simp
  · rw [← isBack, ← isAhead]
    simp [Nat.add_assoc]

/-- The length of a stretch behind one more item: one longer than in front of it if it goes on. -/
theorem getElem?_stretchesAt (isAnchor : α → Bool) (item : α) (diagonal : Nat) (new : List α)
    (before : List Nat) (place : Nat) :
    (stretchesAt isAnchor item diagonal new before)[place]? = new[place]?.map fun other =>
      if item = other && isAnchor other then (diagonal :: before).getD place 0 + 1 else 0 := by
  induction new generalizing diagonal before place with
  | nil => rfl
  | cons other new ih =>
    cases place with
    | zero => rfl
    | succ place =>
      have same : (before.headD 0 :: before.tail).getD place 0 = before.getD place 0 := by
        cases before with
        | nil => cases place <;> rfl
        | cons first before => rfl
      rw [stretchesAt, List.getElem?_cons_succ, ih, List.getElem?_cons_succ, same]
      rfl

theorem ending_stretchesAt {isAnchor : α → Bool} {item : α} {oldEnd : Nat} {before : List Nat}
    (isItem : old[oldEnd]? = some item) (ending : Ending old new oldEnd before) :
    Ending old new (oldEnd + 1) (stretchesAt isAnchor item 0 new before) := by
  intro place length isLength
  obtain ⟨inOld, -⟩ := List.getElem?_eq_some_iff.1 isItem
  rw [getElem?_stretchesAt, Option.map_eq_some_iff] at isLength
  obtain ⟨other, isOther, rfl⟩ := isLength
  obtain ⟨inNew, -⟩ := List.getElem?_eq_some_iff.1 isOther
  split
  · rename_i goesOn
    simp only [Bool.and_eq_true, decide_eq_true_eq] at goesOn
    obtain ⟨rfl, -⟩ := goesOn
    have inFront : ∃ oldStart newStart, oldStart + ((0 :: before).getD place 0) = oldEnd ∧
        newStart + ((0 :: before).getD place 0) = place ∧
        IsMatch old new ⟨oldStart, newStart, (0 :: before).getD place 0⟩ := by
      cases isBefore : (0 :: before)[place]? with
      | none =>
        rw [List.getD_eq_getElem?_getD, isBefore]
        exact ⟨oldEnd, place, rfl, rfl, isMatch_empty (Nat.le_of_lt inOld) (Nat.le_of_lt inNew)⟩
      | some length =>
        rw [List.getD_eq_getElem?_getD, isBefore]
        cases place with
        | zero =>
          cases isBefore
          exact ⟨oldEnd, 0, rfl, rfl, isMatch_empty (Nat.le_of_lt inOld) (Nat.zero_le _)⟩
        | succ place => exact ending place length isBefore
    generalize (0 :: before).getD place 0 = length at inFront ⊢
    obtain ⟨oldStart, newStart, rfl, rfl, isMatch⟩ := inFront
    exact ⟨oldStart, newStart, rfl, rfl, isMatch.snoc isItem isOther⟩
  · exact ⟨oldEnd + 1, place + 1, rfl, rfl, isMatch_empty inOld inNew⟩

theorem isMatch_longestFrom (isAnchor : α → Bool) {done rest : List α} {before : List Nat} {best : Match}
    (ending : Ending (done ++ rest) new done.length before) (isMatch : IsMatch (done ++ rest) new best) :
    IsMatch (done ++ rest) new (longestFrom isAnchor new (done.length + 1) before best rest) := by
  -- The lengths are those of the stretches that end where the rest begins.
  induction rest generalizing done before best with
  | nil => exact isMatch
  | cons item rest ih =>
    have isItem : (done ++ item :: rest)[done.length]? = some item := by
      rw [List.getElem?_append_right (Nat.le_refl _), Nat.sub_self, List.getElem?_cons_zero]
    have next : Ending _ new _ (stretchesAt isAnchor item 0 new before) := ending_stretchesAt isItem ending
    have better := isMatch_betterAt isMatch next
    have shifted : done ++ item :: rest = (done ++ [item]) ++ rest := by rw [List.append_assoc]; rfl
    have isLength : done.length + 1 = (done ++ [item]).length := by rw [List.length_append]; rfl
    rw [longestFrom]
    rw [shifted, isLength] at next better ⊢
    exact ih next better

theorem isMatch_longestAnchored (isAnchor : α → Bool) (old new : List α) :
    IsMatch old new (longestFrom isAnchor new 1 [] {} old) := by
  have start : Ending ([] ++ old) new ([] : List α).length [] := fun _ _ isLength => by cases isLength
  have none : IsMatch ([] ++ old) new {} := isMatch_empty (Nat.zero_le _) (Nat.zero_le _)
  exact isMatch_longestFrom isAnchor start none

/-- What is found is the same in both lists. -/
theorem isMatch_longest (isAnchor : α → Bool) (old new : List α) : IsMatch old new (longest isAnchor old new) :=
  isMatch_extend (isMatch_longestAnchored isAnchor old new)

theorem le_longestFrom (isAnchor : α → Bool) (new : List α) (oldEnd : Nat) (before : List Nat) (best : Match)
    (rest : List α) : best.length ≤ (longestFrom isAnchor new oldEnd before best rest).length := by
  induction rest generalizing oldEnd before best with
  | nil => exact Nat.le_refl _
  | cons item rest ih => exact Nat.le_trans (le_betterAt ..).1 (ih ..)

/-- An anchor in both lists is a stretch of its own, so that something is found. -/
theorem longestFrom_pos {isAnchor : α → Bool} {item : α} {rest : List α} (isOld : item ∈ rest) (isNew : item ∈ new)
    (anchors : isAnchor item = true) (oldEnd : Nat) (before : List Nat) (best : Match) :
    0 < (longestFrom isAnchor new oldEnd before best rest).length := by
  induction rest generalizing oldEnd before best with
  | nil => cases isOld
  | cons first rest ih =>
    rcases List.mem_cons.1 isOld with rfl | isLater
    · obtain ⟨place, isPlace⟩ := List.getElem?_of_mem isNew
      have isLength : (stretchesAt isAnchor item 0 new before)[place]? = some ((0 :: before).getD place 0 + 1) := by
        rw [getElem?_stretchesAt, isPlace]
        simp [anchors]
      have found := (le_betterAt oldEnd 1 best _).2 _ (List.mem_of_getElem? isLength)
      have kept := le_longestFrom isAnchor new (oldEnd + 1) (stretchesAt isAnchor item 0 new before)
        (betterAt oldEnd 1 best (stretchesAt isAnchor item 0 new before)) rest
      rw [longestFrom]
      omega
    · exact ih isLater ..

/-- Nothing is found only where no anchor is in both lists. -/
theorem not_mem_of_longest {isAnchor : α → Bool} {item : α} (nothing : (longest isAnchor old new).length = 0)
    (isOld : item ∈ old) (anchors : isAnchor item = true) : item ∉ new := by
  intro isNew
  have found := longestFrom_pos isOld isNew anchors 1 [] {}
  simp only [longest, extend] at nothing
  omega

end Flowchart.Diff
