import Flowchart.Proofs.Diff.Agreement
import Flowchart.Proofs.Diff.Unified

/-!
The patch of two texts turns the one into the other. Its groups of edits tile both texts: between them, in front of
them and behind them stand lines that the texts share, and each group tells its place. What is written for the groups
is read back as their hunks, and hunks that tile the old text apply to it.
-/
namespace Flowchart

open Diff (Placed Hunk Stretch)

namespace Edit

/-- The lines of an edit with their signs. -/
def marked : Edit String → List (Char × List Char)
  | keep lines => lines.map fun line => (' ', line.toList)
  | change old new => (old.map fun line => ('-', line.toList)) ++ new.map fun line => ('+', line.toList)

theorem sides_marked (edit : Edit String) :
    (edit.marked.filter (·.1 ≠ '+')).map Prod.snd = edit.old.map String.toList ∧
      (edit.marked.filter (·.1 ≠ '-')).map Prod.snd = edit.new.map String.toList := by
  have all (lines : List String) : lines.filter (fun _ => true) = lines := List.filter_eq_self.2 fun _ _ => rfl
  have none (lines : List String) : lines.filter (fun _ => false) = [] := List.filter_eq_nil_iff.2 fun _ _ => nofun
  cases edit <;> simp [marked, old, new, List.filter_map, Function.comp_def, all, none]

end Edit

namespace Diff

variable {p q oldStart newStart : Nat} {old new : List String} {edits : List (Edit String)}
  {group : List Placed} {groups : List (List Placed)}

section tiling

theorem ofEdits_append (oldStart newStart : Nat) (front back : List (Edit String)) :
    Placed.ofEdits oldStart newStart (front ++ back) = Placed.ofEdits oldStart newStart front ++
      Placed.ofEdits (oldStart + (front.flatMap Edit.old).length) (newStart + (front.flatMap Edit.new).length)
        back := by
  induction front generalizing oldStart newStart with
  | nil => rfl
  | cons edit front ih =>
    simp only [List.cons_append, Placed.ofEdits, ih, List.flatMap_cons, List.length_append, Nat.add_assoc]

theorem map_edit_ofEdits (oldStart newStart : Nat) (edits : List (Edit String)) :
    (Placed.ofEdits oldStart newStart edits).map Placed.edit = edits := by
  induction edits generalizing oldStart newStart with
  | nil => rfl
  | cons edit edits ih => rw [Placed.ofEdits, List.map_cons, ih]

theorem flatMap_edit_ofEdits {β : Type} (f : Edit String → List β) (oldStart newStart : Nat)
    (edits : List (Edit String)) :
    (Placed.ofEdits oldStart newStart edits).flatMap (fun placed => f placed.edit) = edits.flatMap f := by
  rw [← List.flatMap_map, map_edit_ofEdits]

/-- Two texts behind some lines of each are covered by groups of edits with lines between them that both share. -/
inductive Tiles : Nat → Nat → List String → List String → List (List Placed) → Prop
  | done {p q rest} : Tiles p q rest rest []
  | group {p q skipped edits old new groups} :
      Tiles (p + skipped.length + (edits.flatMap Edit.old).length)
        (q + skipped.length + (edits.flatMap Edit.new).length) old new groups →
      Tiles p q (skipped ++ (edits.flatMap Edit.old ++ old)) (skipped ++ (edits.flatMap Edit.new ++ new))
        (Placed.ofEdits (p + skipped.length) (q + skipped.length) edits :: groups)

theorem Tiles.skip (shared : List String) (tiles : Tiles (p + shared.length) (q + shared.length) old new groups) :
    Tiles p q (shared ++ old) (shared ++ new) groups := by
  cases tiles with
  | done => exact .done
  | @group _ _ skipped _ _ _ _ tiles =>
    have longer (place : Nat) : place + shared.length + skipped.length = place + (shared ++ skipped).length := by
      rw [List.length_append, Nat.add_assoc]
    rw [longer, longer] at tiles ⊢
    rw [← List.append_assoc, ← List.append_assoc shared skipped]
    exact .group tiles

theorem Tiles.appendShared (tiles : Tiles p q old new groups) (shared : List String) :
    Tiles p q (old ++ shared) (new ++ shared) groups := by
  induction tiles with
  | done => exact .done
  | group _ ih =>
    rw [List.append_assoc, List.append_assoc, List.append_assoc, List.append_assoc]
    exact .group ih

/-- Groups without a change may be left out. -/
theorem Tiles.filter (tiles : Tiles p q old new groups) : Tiles p q old new (groups.filter hasChange) := by
  induction tiles with
  | done => exact .done
  | @group p q skipped edits old new groups _ ih =>
    rw [List.filter_cons]
    split
    · exact .group ih
    · rename_i noChange
      rw [hasChange_ofEdits, List.any_eq_true] at noChange
      have same : edits.flatMap Edit.new = edits.flatMap Edit.old := by
        rw [List.flatMap_def, List.flatMap_def]
        congr 1
        refine List.map_congr_left fun edit mem => ?_
        cases edit with
        | keep => rfl
        | change before after => exact absurd ⟨_, mem, rfl⟩ noChange
      rw [same] at ih ⊢
      exact .skip skipped (.skip _ ih)

/-- A stretch with more lines than a group keeps at both ends falls into those lines and the ones between them. -/
theorem cut_lines {lines : List String} (isLong : 2 * context < lines.length) :
    ∃ first between last, lines = first ++ (between ++ last) ∧ lines.take context = first ∧
      lines.length - context = first.length + between.length := by
  have cut : lines.length - context = context + (lines.length - 2 * context) := by omega
  refine ⟨lines.take context, (lines.drop context).take (lines.length - 2 * context),
    lines.drop (lines.length - context), ?_, rfl, ?_⟩
  · rw [cut, ← List.drop_drop, List.take_append_drop, List.take_append_drop]
  · simp only [List.length_take, List.length_drop]
    omega

/-- A long stretch that stays is cut: its first lines end a group, its last lines start the next one, and the lines
between them are in no group. -/
theorem tiles_groupsFrom (p q : Nat) (done edits : List (Edit String)) :
    Tiles p q ((done ++ edits).flatMap Edit.old) ((done ++ edits).flatMap Edit.new)
      (Placed.groupsFrom (Placed.ofEdits p q done).reverse
        (Placed.ofEdits (p + (done.flatMap Edit.old).length) (q + (done.flatMap Edit.new).length) edits)) := by
  induction edits generalizing p q done with
  | nil =>
    rw [List.append_nil, Placed.ofEdits, Placed.groupsFrom, List.reverse_reverse]
    have tiles : Tiles p q ([] ++ (done.flatMap Edit.old ++ [])) ([] ++ (done.flatMap Edit.new ++ []))
        [Placed.ofEdits p q done] := .group .done
    simpa using tiles
  | cons edit edits ih =>
    rw [Placed.ofEdits, Placed.groupsFrom]
    split
    · rename_i isLong
      cases edit with
      | change => simp [Edit.isChange] at isLong
      | keep lines =>
        simp only [Edit.isChange, Edit.old, Bool.not_false, Bool.true_and] at isLong
        obtain ⟨first, between, last, isLines, isFirst, skipped⟩ := cut_lines (of_decide_eq_true isLong)
        have front : Tiles p q
            ([] ++ ((done ++ [Edit.keep first]).flatMap Edit.old ++
              (between ++ ([Edit.keep last] ++ edits).flatMap Edit.old)))
            ([] ++ ((done ++ [Edit.keep first]).flatMap Edit.new ++
              (between ++ ([Edit.keep last] ++ edits).flatMap Edit.new)))
            _ := .group (.skip between (ih _ _ [.keep last]))
        simp only [Placed.keepFirst, Placed.keepLast, isFirst, skipped]
        simpa [ofEdits_append, Placed.ofEdits, Edit.old, Edit.new, isLines, Nat.add_assoc] using front
    · have next := ih p q (done ++ [edit])
      rw [List.append_assoc, ofEdits_append] at next
      simpa [Placed.ofEdits, Nat.add_assoc] using next

/-- The first of the edits keeps its last lines only: what is left are edits behind some lines that stay. -/
theorem trimHead (p q : Nat) (edits : List (Edit String)) :
    ∃ (shared : List String) (rest : List (Edit String)),
      edits.flatMap Edit.old = shared ++ rest.flatMap Edit.old ∧
      edits.flatMap Edit.new = shared ++ rest.flatMap Edit.new ∧
      (match Placed.ofEdits p q edits with
        | [] => []
        | first :: placed => first.keepLast context :: placed) =
        Placed.ofEdits (p + shared.length) (q + shared.length) rest := by
  cases edits with
  | nil => exact ⟨[], [], rfl, rfl, rfl⟩
  | cons edit edits =>
    cases edit with
    | change before after => exact ⟨[], .change before after :: edits, rfl, rfl, rfl⟩
    | keep lines =>
      refine ⟨lines.take (lines.length - context), .keep (lines.drop (lines.length - context)) :: edits, ?_, ?_, ?_⟩
      · simp [Edit.old, ← List.append_assoc]
      · simp [Edit.new, ← List.append_assoc]
      · have size : (lines.take (lines.length - context)).length = lines.length - context := by simp
        have whole : lines.length - context + (lines.length - (lines.length - context)) = lines.length := by omega
        simp only [Placed.ofEdits, Placed.keepLast, Edit.old, Edit.new, List.length_drop, size, Nat.add_assoc, whole]

/-- The last of the edits keeps its first lines only: what is left are edits in front of some lines that stay. -/
theorem trimLast (p q : Nat) (edits : List (Edit String)) :
    ∃ (shared : List String) (rest : List (Edit String)),
      edits.flatMap Edit.old = rest.flatMap Edit.old ++ shared ∧
      edits.flatMap Edit.new = rest.flatMap Edit.new ++ shared ∧
      (match (Placed.ofEdits p q edits).reverse with
        | [] => []
        | last :: placed => (last.keepFirst context :: placed).reverse) = Placed.ofEdits p q rest := by
  rcases List.eq_nil_or_concat edits with rfl | ⟨front, edit, rfl⟩
  · exact ⟨[], [], rfl, rfl, rfl⟩
  · cases edit with
    | change before after =>
      refine ⟨[], front ++ [.change before after], ?_, ?_, ?_⟩
      · simp
      · simp
      · simp [ofEdits_append, Placed.ofEdits, Placed.keepFirst]
    | keep lines =>
      refine ⟨lines.drop context, front ++ [.keep (lines.take context)], ?_, ?_, ?_⟩
      · simp [Edit.old]
      · simp [Edit.new]
      · simp [ofEdits_append, Placed.ofEdits, Placed.keepFirst]

/-- The groups of edits that are written tile the two texts. -/
theorem tiles_groups (edits : List (Edit String)) :
    Tiles 0 0 (edits.flatMap Edit.old) (edits.flatMap Edit.new) (Placed.groups (Placed.ofEdits 0 0 edits)) := by
  obtain ⟨front, trimmed, isOld, isNew, headTrimmed⟩ := trimHead 0 0 edits
  obtain ⟨back, rest, isOldRest, isNewRest, bothTrimmed⟩ := trimLast (0 + front.length) (0 + front.length) trimmed
  have trimEnds : Placed.trimEnds (Placed.ofEdits 0 0 edits) =
      Placed.ofEdits (0 + front.length) (0 + front.length) rest := by
    rw [← bothTrimmed, ← headTrimmed]
    rfl
  have tiles := tiles_groupsFrom (0 + front.length) (0 + front.length) [] rest
  rw [isOld, isNew, isOldRest, isNewRest, Placed.groups, trimEnds]
  exact .skip front (tiles.filter.appendShared back)

end tiling

section applying

/-- The hunk that stands for a group. -/
def hunk (group : List Placed) : Hunk :=
  ⟨⟨(group.head?.map Placed.oldStart).getD 0, (group.flatMap (·.edit.old)).length⟩,
    ⟨(group.head?.map Placed.newStart).getD 0, (group.flatMap (·.edit.new)).length⟩, group.flatMap (·.edit.marked)⟩

theorem hunk_ofEdits (some : edits ≠ []) : hunk (Placed.ofEdits oldStart newStart edits) =
    ⟨⟨oldStart, (edits.flatMap Edit.old).length⟩, ⟨newStart, (edits.flatMap Edit.new).length⟩,
      edits.flatMap Edit.marked⟩ := by
  rw [hunk, flatMap_edit_ofEdits Edit.old, flatMap_edit_ofEdits Edit.new, flatMap_edit_ofEdits Edit.marked]
  cases edits with
  | nil => exact absurd rfl some
  | cons edit edits => rfl

theorem oldLines_marked (edits : List (Edit String)) :
    ((edits.flatMap Edit.marked).filter (·.1 ≠ '+')).map Prod.snd = (edits.flatMap Edit.old).map String.toList := by
  rw [List.filter_flatMap, List.map_flatMap, List.map_flatMap]
  exact congrArg (edits.flatMap ·) (funext fun edit => edit.sides_marked.1)

theorem newLines_marked (edits : List (Edit String)) :
    ((edits.flatMap Edit.marked).filter (·.1 ≠ '-')).map Prod.snd = (edits.flatMap Edit.new).map String.toList := by
  rw [List.filter_flatMap, List.map_flatMap, List.map_flatMap]
  exact congrArg (edits.flatMap ·) (funext fun edit => edit.sides_marked.2)

/-- Hunks that tile a text apply to it. -/
theorem applyFrom?_of_tiles (tiles : Tiles p q old new groups) (some : ∀ group ∈ groups, group ≠ []) :
    applyFrom? p q (groups.map hunk) (old.map String.toList) = .some (new.map String.toList) := by
  induction tiles with
  | done => rfl
  | @group p q skipped edits old new groups _ ih =>
    obtain ⟨notEmpty, some⟩ := List.forall_mem_cons.1 some
    have someEdits : edits ≠ [] := by
      rintro rfl
      exact notEmpty rfl
    have oldLines := oldLines_marked edits
    have newLines := newLines_marked edits
    have here : ((skipped ++ (edits.flatMap Edit.old ++ old)).map String.toList).drop skipped.length =
        (edits.flatMap Edit.old).map String.toList ++ old.map String.toList := by
      simp
    have front : ((skipped ++ (edits.flatMap Edit.old ++ old)).map String.toList).take skipped.length =
        skipped.map String.toList := by
      simp
    have behind : ((edits.flatMap Edit.old).map String.toList ++ old.map String.toList).drop
        (edits.flatMap Edit.old).length = old.map String.toList := by
      simp
    rw [List.map_cons, hunk_ofEdits someEdits, applyFrom?]
    simp only [Hunk.oldLines, Hunk.newLines, oldLines, newLines, Nat.add_sub_cancel_left, here, front, behind,
      List.length_map]
    rw [if_pos (by simp), ih some]
    simp

end applying

section writing

variable {rest : List Char}

theorem toString_text (text : String) : toString text = text := rfl

/-- How many lines there are is told unless it is one. -/
theorem toList_rangeText (start length : Nat) : (rangeText start length).toList =
    Nat.toDigits 10 (if length = 0 then start else start + 1) ++
      if length = 1 then [] else ',' :: Nat.toDigits 10 length := by
  rw [rangeText]
  split
  · rename_i isOne
    simp [isOne]
  · rename_i isOther
    split <;> simp_all [toString_text]

theorem feed_not_mem_rangeText (start length : Nat) : '\n' ∉ (rangeText start length).toList := by
  have digits (n : Nat) : '\n' ∉ Nat.toDigits 10 n := fun mem => absurd (isDigit_of_mem _ mem) (by decide)
  rw [toList_rangeText]
  split <;> simp [digits]

/-- What is written for some lines is read back, in front of a space. -/
theorem readStretch?_rangeText (start length : Nat) (rest : List Char) :
    readStretch? ((rangeText start length).toList ++ ' ' :: rest) = some (⟨start, length⟩, ' ' :: rest) := by
  have number (n : Nat) (c : Char) (rest : List Char) (ends : c.isDigit = false) :
      Number.spanDigits (Nat.toDigits 10 n ++ c :: rest) = (Nat.toDigits 10 n, c :: rest) :=
    spanDigits_append isDigit_of_mem (by simpa using ends)
  rw [toList_rangeText]
  by_cases isOne : length = 1
  · subst isOne
    have one : Number.digitsValue ['1'] = 1 := rfl
    simp [readStretch?, number _ ' ' rest (by decide), digitsValue_toDigits, isEmpty_toDigits, one]
  · rw [if_neg isOne, readStretch?, List.append_assoc, List.cons_append, number _ ',' _ (by decide)]
    simp only [number _ ' ' rest (by decide), digitsValue_toDigits, isEmpty_toDigits]
    by_cases isNone : length = 0 <;> simp [isNone]

/-- What a hunk starts with. -/
def headText (old new : Stretch) : String :=
  s!"@@ -{rangeText old.start old.length} +{rangeText new.start new.length} @@\n"

theorem toList_headText (old new : Stretch) : (headText old new).toList =
    ['@', '@', ' ', '-'] ++ ((rangeText old.start old.length).toList ++
      ' ' :: '+' :: ((rangeText new.start new.length).toList ++ ' ' :: ['@', '@', '\n'])) := by
  simp [headText, toString_text]

/-- The head of a hunk is read back. -/
theorem readHead?_headText (old new : Stretch) : readHead? (headText old new).toList = some (old, new) := by
  rw [toList_headText, readHead?, Text.stripPrefix?_append]
  simp [readStretch?_rangeText, Text.stripPrefix?]

theorem isFed_headText (old new : Stretch) : IsFed (headText old new).toList := by
  refine ⟨['@', '@', ' ', '-'] ++ ((rangeText old.start old.length).toList ++
    ' ' :: '+' :: ((rangeText new.start new.length).toList ++ [' ', '@', '@'])), ?_, ?_⟩
  · simp [feed_not_mem_rangeText]
  · rw [toList_headText]
    simp

/-- The lines of an edit are lines of the texts, each behind a sign. -/
theorem mem_marked {edit : Edit String} {mark : Char × List Char} (mem : mark ∈ edit.marked) :
    mark.1 ∈ [' ', '-', '+'] ∧ ∃ line ∈ edit.old ++ edit.new, mark.2 = line.toList := by
  cases edit with
  | keep lines =>
    obtain ⟨line, isLine, rfl⟩ := List.mem_map.1 mem
    exact ⟨by simp, line, List.mem_append_left _ isLine, rfl⟩
  | change old new =>
    rcases List.mem_append.1 mem with mem | mem <;> obtain ⟨line, isLine, rfl⟩ := List.mem_map.1 mem
    · exact ⟨by simp, line, List.mem_append_left _ isLine, rfl⟩
    · exact ⟨by simp, line, List.mem_append_right _ isLine, rfl⟩

theorem toList_lines (placed : Placed) :
    placed.lines.map String.toList = placed.edit.marked.map fun mark => mark.1 :: mark.2 := by
  obtain ⟨oldStart, newStart, edit⟩ := placed
  cases edit <;> simp [Placed.lines, Edit.marked, Function.comp_def]

theorem toList_hunkText (some : group ≠ []) : (hunkText group).toList =
    (headText (hunk group).old (hunk group).new).toList ++
      ((hunk group).lines.map fun mark => mark.1 :: mark.2).flatten := by
  cases group with
  | nil => exact absurd rfl some
  | cons first rest =>
    have lines (group : List Placed) : (group.flatMap Placed.lines).flatMap String.toList =
        ((group.flatMap (·.edit.marked)).map fun mark => mark.1 :: mark.2).flatten := by
      rw [List.flatMap_def, List.map_flatMap, List.map_flatMap]
      simp only [toList_lines]
    rw [hunkText, String.toList_join, List.flatMap_cons, lines]
    rfl

/-- All lines of the edits are ended by line feeds. -/
def AreFed (group : List Placed) : Prop :=
  ∀ placed ∈ group, ∀ line ∈ placed.edit.old ++ placed.edit.new, IsFed line.toList

/-- The hunks of the groups are read back from what is written for them. -/
theorem readHunks?_hunkText (some : ∀ group ∈ groups, group ≠ []) (areFed : ∀ group ∈ groups, AreFed group) :
    readHunks? (feedLines (groups.flatMap fun group => (hunkText group).toList)) = .some (groups.map hunk) := by
  induction groups with
  | nil => rw [List.flatMap_nil, feedLines, readHunks?, List.map_nil]
  | cons group groups ih =>
    obtain ⟨someEdits, some⟩ := List.forall_mem_cons.1 some
    obtain ⟨isFed, areFed⟩ := List.forall_mem_cons.1 areFed
    have marks : ∀ mark ∈ (hunk group).lines, mark.1 ∈ [' ', '-', '+'] ∧ IsFed mark.2 := by
      intro mark mem
      obtain ⟨placed, isPlaced, mem⟩ := List.mem_flatMap.1 mem
      obtain ⟨isSign, line, isLine, isText⟩ := mem_marked mem
      exact ⟨isSign, isText ▸ isFed placed isPlaced line isLine⟩
    have lines : ∀ line ∈ (hunk group).lines.map (fun mark => mark.1 :: mark.2), IsFed line := by
      simp only [List.forall_mem_map]
      intro mark mem
      obtain ⟨isSign, isFed⟩ := marks mark mem
      refine isFed_cons ?_ isFed
      rintro isFeed
      rw [isFeed] at isSign
      exact absurd isSign (by decide)
    have oldCount : (hunk group).old.length = ((hunk group).lines.filter (·.1 ≠ '+')).length := by
      have sides := congrArg List.length (oldLines_marked (group.map Placed.edit))
      rw [List.length_map, List.length_map, List.flatMap_map, List.flatMap_map] at sides
      exact sides.symm
    have newCount : (hunk group).new.length = ((hunk group).lines.filter (·.1 ≠ '-')).length := by
      have sides := congrArg List.length (newLines_marked (group.map Placed.edit))
      rw [List.length_map, List.length_map, List.flatMap_map, List.flatMap_map] at sides
      exact sides.symm
    have body := readBody?_append (hunk group).lines
      (feedLines (groups.flatMap fun group => (hunkText group).toList)) fun mark mem => (marks mark mem).1
    rw [← oldCount, ← newCount] at body
    rw [List.flatMap_cons, toList_hunkText someEdits, List.append_assoc, feedLines_append (isFed_headText _ _),
      feedLines_flatten lines, readHunks?, readHead?_headText]
    dsimp only
    split
    · rename_i noBody
      rw [body] at noBody
      cases noBody
    · rename_i marked rest isBody
      rw [body] at isBody
      cases isBody
      rw [ih some areFed]
      rfl

/-- The lines of a text that only line feeds end. -/
theorem feedLines_eq {cs : List Char} (feeds : ∀ c ∈ cs, Text.isLineEnd c = true → c = '\n') :
    (Text.splitLines cs).map Text.Line.chars = feedLines cs := by
  fun_induction Text.splitLines cs with
  | case1 => rfl
  | case2 rest ih => exact absurd (feeds '\r' List.mem_cons_self (by decide)) (by decide)
  | case3 c rest _ ends ih =>
    obtain ⟨isFeed, behind⟩ := List.forall_mem_cons.1 feeds
    obtain rfl := isFeed ends
    rw [List.map_cons, ih behind, feedLines, if_pos rfl]
    rfl
  | case4 c rest _ notEnd none ih =>
    have differs : c ≠ '\n' := by
      rintro rfl
      exact notEnd (by decide)
    have noLines := ih (List.forall_mem_cons.1 feeds).2
    rw [none] at noLines
    rw [feedLines, if_neg differs, ← noLines]
    rfl
  | case5 c rest _ notEnd line lines some ih =>
    have differs : c ≠ '\n' := by
      rintro rfl
      exact notEnd (by decide)
    have isLines := ih (List.forall_mem_cons.1 feeds).2
    rw [some] at isLines
    rw [feedLines, if_neg differs, ← isLines]
    rfl

/-- Only line feeds end lines of the text. -/
def OnlyFeeds (text : String) : Prop :=
  ∀ c ∈ text.toList, Text.isLineEnd c = true → c = '\n'

instance : DecidablePred OnlyFeeds := fun text =>
  decidable_of_iff (text.toList.all fun c => !Text.isLineEnd c || c == '\n')
    (by simp [OnlyFeeds, Decidable.imp_iff_not_or])

theorem onlyFeeds_ended {text : String} (feeds : OnlyFeeds text) : OnlyFeeds (ended text) := by
  rw [ended]
  split
  · exact feeds
  · intro c mem ends
    rw [String.toList_push, List.mem_append, List.mem_singleton] at mem
    rcases mem with mem | isFeed
    · exact feeds c mem ends
    · exact isFeed

theorem toList_ended (text : String) : ∃ body, (ended text).toList = body ++ ['\n'] := by
  rw [ended]
  split
  · rename_i ends
    obtain ⟨body, isText⟩ := List.getLast?_eq_some_iff.1 ends
    exact ⟨body, isText⟩
  · exact ⟨text.toList, String.toList_push ..⟩

theorem toList_endedLines {text : String} (feeds : OnlyFeeds text) :
    (endedLines text).map String.toList = feedLines (ended text).toList := by
  rw [← feedLines_eq (onlyFeeds_ended feeds)]
  show ((Text.splitLines (ended text).toList).map Text.Line.text).map String.toList = _
  rw [List.map_map]
  exact List.map_congr_left fun line _ => String.toList_ofList

/-- The groups that tile two texts have lines of these texts only. -/
theorem Tiles.mem (tiles : Tiles p q old new groups) (mem : group ∈ groups) {placed : Placed}
    (isPlaced : placed ∈ group) {line : String} (isLine : line ∈ placed.edit.old ++ placed.edit.new) :
    line ∈ old ++ new := by
  induction tiles with
  | done => cases mem
  | @group p q skipped edits old new groups _ ih =>
    rcases List.mem_cons.1 mem with rfl | mem
    · have isEdit : placed.edit ∈ edits := by
        rw [← map_edit_ofEdits _ _ edits]
        exact List.mem_map_of_mem isPlaced
      rcases List.mem_append.1 isLine with isOld | isNew
      · have mem : line ∈ edits.flatMap Edit.old := List.mem_flatMap.2 ⟨_, isEdit, isOld⟩
        simp only [List.mem_append, mem, true_or, or_true]
      · have mem : line ∈ edits.flatMap Edit.new := List.mem_flatMap.2 ⟨_, isEdit, isNew⟩
        simp only [List.mem_append, mem, true_or, or_true]
    · have behind := ih mem
      simp only [List.mem_append] at behind ⊢
      rcases behind with isOld | isNew
      · exact .inl (.inr (.inr isOld))
      · exact .inr (.inr (.inr isNew))

/-- A patch that has hunks names the texts first. -/
theorem readPatch?_named {name : String} {lines : List Char} (oneLine : '\n' ∉ name.toList) :
    readPatch? ((s!"--- {name} (current)\n+++ {name} (suggested)\n").toList ++ lines) =
      readHunks? (feedLines lines) := by
  have old : IsFed (['-', '-', '-', ' '] ++ name.toList ++ " (current)\n".toList) :=
    ⟨['-', '-', '-', ' '] ++ name.toList ++ " (current)".toList, by simp [oneLine], by simp⟩
  have new : IsFed (['+', '+', '+', ' '] ++ name.toList ++ " (suggested)\n".toList) :=
    ⟨['+', '+', '+', ' '] ++ name.toList ++ " (suggested)".toList, by simp [oneLine], by simp⟩
  have written : (s!"--- {name} (current)\n+++ {name} (suggested)\n").toList ++ lines =
      (['-', '-', '-', ' '] ++ name.toList ++ " (current)\n".toList) ++
        ((['+', '+', '+', ' '] ++ name.toList ++ " (suggested)\n".toList) ++ lines) := by
    simp [toString_text]
  rw [readPatch?, written, feedLines_append old, feedLines_append new]
  simp

theorem isFed_of_mem_endedLines {text line : String} (feeds : OnlyFeeds text) (mem : line ∈ endedLines text) :
    IsFed line.toList := by
  obtain ⟨body, isText⟩ := toList_ended text
  have mem := List.mem_map_of_mem (f := String.toList) mem
  rw [toList_endedLines feeds, isText] at mem
  exact isFed_of_mem_feedLines mem

theorem flatten_endedLines (text : String) : ((endedLines text).map String.toList).flatten = (ended text).toList := by
  show (((Text.splitLines (ended text).toList).map Text.Line.text).map String.toList).flatten = _
  rw [List.map_map, ← List.flatMap_def]
  simp only [Function.comp_def, Text.Line.text, String.toList_ofList]
  exact Text.flatMap_chars_splitLines _

/-- A patch applies to the old text and gives the new one, a line feed at the end of either being supplied. -/
theorem applyPatch?_patch {old new name : String} (oldFeeds : OnlyFeeds old) (newFeeds : OnlyFeeds new)
    (oneLine : '\n' ∉ name.toList) : applyPatch? (patch old new name) (ended old) = some (ended new) := by
  obtain ⟨isOld, isNew⟩ := flatMap_edits (isRare (endedLines new)) (endedLines old) (endedLines new)
  have tiles := tiles_groups (edits (isRare (endedLines new)) (endedLines old) (endedLines new))
  rw [isOld, isNew] at tiles
  have someEdits : ∀ group ∈ Placed.groups (Placed.ofEdits 0 0
      (edits (isRare (endedLines new)) (endedLines old) (endedLines new))), group ≠ [] := by
    rintro group mem rfl
    cases (List.mem_filter.1 mem).2
  have areFed : ∀ group ∈ Placed.groups (Placed.ofEdits 0 0
      (edits (isRare (endedLines new)) (endedLines old) (endedLines new))), AreFed group := by
    intro group mem placed isPlaced line isLine
    rcases List.mem_append.1 (tiles.mem mem isPlaced isLine) with isOld | isNew
    · exact isFed_of_mem_endedLines oldFeeds isOld
    · exact isFed_of_mem_endedLines newFeeds isNew
  have isHunks := readHunks?_hunkText someEdits areFed
  have applied := applyFrom?_of_tiles tiles someEdits
  have isPatch : readPatch? (patch old new name).toList = some ((Placed.groups (Placed.ofEdits 0 0
      (edits (isRare (endedLines new)) (endedLines old) (endedLines new)))).map hunk) := by
    delta patch
    dsimp only
    generalize Placed.groups _ = groups at isHunks ⊢
    cases groups with
    | nil => rfl
    | cons group groups =>
      rw [String.toList_join, List.flatMap_cons, readPatch?_named oneLine, List.flatMap_map]
      exact isHunks
  rw [applyPatch?, isPatch, ← toList_endedLines oldFeeds]
  simp only [Option.bind_eq_bind, Option.bind_some, applied]
  rw [flatten_endedLines, String.ofList_toList]
  rfl

end writing

theorem ended_of_trim {text : String} (trimmed : Text.trim text = text) : ended text = text ++ "\n" := by
  have notFeed : text.toList.getLast? ≠ some '\n' := by
    intro isFeed
    rw [← trimmed, Text.trim, String.toList_ofList] at isFeed
    exact absurd ((Text.isTrimmed_trimChars _).last _ isFeed) (by decide)
  rw [ended_of_not_getLast? notFeed, String.push_eq_append]
  rfl

/-- A patch that is shown for a suggestion gives the suggestion with a line feed behind it, which is what is written
when the suggestion is accepted. -/
theorem applyPatch?_suggestion {source text name : String} (sourceFeeds : OnlyFeeds source) (textFeeds : OnlyFeeds text)
    (trimmed : Text.trim text = text) (oneLine : '\n' ∉ name.toList) :
    applyPatch? (patch source text name) (ended source) = some (text ++ "\n") := by
  rw [← ended_of_trim trimmed]
  exact applyPatch?_patch sourceFeeds textFeeds oneLine

/-- Two changes that lie too far apart for one hunk, behind a line that a patch could be mistaken about. -/
theorem applyPatch?_suggestion_twoHunks :
    let source := "graph TD\n-- \nA\nB\nC\nD\nE\nF\nG\n@@ -1 +1 @@\nA -->"
    let text := "graph LR\n-- \nA\nB\nC\nD\nE\nF\nG\n@@ -1 +1 @@\n\nA --> B"
    OnlyFeeds source ∧ OnlyFeeds text ∧ Text.trim text = text ∧ '\n' ∉ "flow.mmd".toList ∧
      applyPatch? (patch source text "flow.mmd") (ended source) = some (text ++ "\n") := by
  intro source text
  have sourceFeeds : OnlyFeeds source := by decide
  have textFeeds : OnlyFeeds text := by decide
  have trimmed : Text.trim text = text := by decide
  have oneLine : '\n' ∉ "flow.mmd".toList := by decide
  exact ⟨sourceFeeds, textFeeds, trimmed, oneLine, applyPatch?_suggestion sourceFeeds textFeeds trimmed oneLine⟩

end Diff
end Flowchart
