import Flowchart.Proofs.Yaml.Cursor
import Flowchart.Yaml.Scalar

/-!
Reading a plain scalar at the end of a text, word by word. Between two words there are spaces, or the line
ends and the next one is indented.
-/
namespace Flowchart.Yaml.Scalar

/-- A word that a plain scalar can hold, whatever space or line end follows it. -/
structure IsPlainWord (word : List Char) : Prop where
  ne_nil : word ≠ []
  noGap : ∀ c ∈ word, isGap c = false
  noMark : ∀ c ∈ word, c ≠ '\uFEFF'
  noHash : word.head? ≠ some '#'
  noColon : word.getLast? ≠ some ':'

/-- A text is read as a plain scalar up to its end, from any place in a line. -/
def ReadsPlain (rest text : List Char) : Prop :=
  ∀ (cursor : Cursor) (fuel : Nat) (spaces : List Char) (allowKey : Bool), cursor.rest = rest →
    rest.length < fuel → ∃ behind : Cursor, behind.rest = [] ∧
      plainFrom false 1 fuel spaces allowKey cursor = (spaces ++ text, true, behind)

/-- Nothing of a text that begins with the end of a line or with a space belongs to a word. -/
theorem plainWord_gap {rest : List Char} (gap : ∀ c ∈ rest.head?, isGap c = true) : plainWord false rest = [] := by
  cases rest <;> simp_all [plainWord]

theorem plainWord_append {word rest : List Char} (noGap : ∀ c ∈ word, isGap c = false)
    (noColon : word.getLast? ≠ some ':') (stops : plainWord false rest = []) :
    plainWord false (word ++ rest) = word := by
  induction word with
  | nil => exact stops
  | cons c word ih =>
    obtain ⟨here, behind⟩ := List.forall_mem_cons.1 noGap
    have noEnd : (c = ':' && isGap ((word ++ rest).headD '\x00')) = false := by
      cases word with
      | nil => simp_all
      | cons d word => simp [(List.forall_mem_cons.1 behind).1]
    have read : plainWord false (word ++ rest) = word := by
      cases word with
      | nil => exact ih behind (by simp)
      | cons d word => exact ih behind (by simpa using noColon)
    simp_all [plainWord]

section
variable {word rest text : List Char}

theorem IsPlainWord.isSolid (isWord : IsPlainWord word) : IsSolid word := by
  cases word with
  | nil => exact absurd rfl isWord.ne_nil
  | cons c word => exact isSolid_cons.2 (isWord.noGap c List.mem_cons_self)

/-- The place behind a word is in the same line. -/
theorem IsPlainWord.forward {cursor : Cursor} (isWord : IsPlainWord word) (eq : cursor.rest = word ++ rest) :
    cursor.forward word.length =
      ⟨rest, cursor.index + word.length, cursor.line, cursor.column + word.length⟩ :=
  Cursor.forward_append word (fun c mem => ⟨.inr (isWord.noGap c mem), isWord.noMark c mem⟩) eq

/-- One round reads a word and what lies between it and the next one, if there is a next one. -/
theorem plainFrom_word {cursor : Cursor} (indent : Int) (fuel : Nat) (spaces : List Char) (allowKey : Bool)
    (isWord : IsPlainWord word) (stops : plainWord false rest = []) (eq : cursor.rest = word ++ rest) :
    plainFrom false indent (fuel + 1) spaces allowKey cursor =
      let (between, ended, behind) := plainSpaces (cursor.forward word.length)
      if between.isEmpty || behind.peek = '#' || behind.column < indent then (spaces ++ word, ended, behind)
      else
        let (more, allowKey, last) := plainFrom false indent fuel between ended behind
        (spaces ++ word ++ more, allowKey, last) := by
  have taken : plainWord false cursor.rest = word := eq ▸ plainWord_append isWord.noGap isWord.noColon stops
  have noHash : cursor.peek ≠ '#' := by
    obtain ⟨c, behind, rfl, -⟩ := isWord.isSolid.exists_cons
    rw [Cursor.peek_of_rest eq]
    simpa using isWord.noHash
  simp [plainFrom, taken, noHash, isWord.ne_nil]

/-- The last word. -/
theorem readsPlain_word (isWord : IsPlainWord word) : ReadsPlain (word ++ ['\n']) word := by
  intro cursor fuel spaces allowKey eq enough
  obtain ⟨fuel, rfl⟩ := Nat.exists_eq_add_of_lt enough
  have between : plainSpaces (cursor.forward word.length) =
      ([' '], true, (cursor.forward word.length).step) := by
    rw [isWord.forward eq]
    rfl
  refine ⟨(cursor.forward word.length).step, by rw [isWord.forward eq]; rfl, ?_⟩
  have column : (cursor.forward word.length).step.column = 0 := by
    rw [isWord.forward eq]
    rfl
  rw [plainFrom_word 1 _ _ _ isWord (plainWord_gap (by simp [isGap, isSpaceOrEnd, isLineEnd, isBreak])) eq]
  simp [between, column]

/-- The words behind the first, once it is known what lies between them. -/
theorem ReadsPlain.behindWord (between gap : List Char) (ended : Bool) (reads : ReadsPlain rest text)
    (isWord : IsPlainWord word) (noHash : rest.headD '\x00' ≠ '#')
    (isGap : ∀ c ∈ (gap ++ rest).head?, isGap c = true) (ne : between ≠ [])
    (spaces : ∀ cursor : Cursor, cursor.rest = gap ++ rest → 0 < cursor.column → ∃ behind : Cursor,
      behind.rest = rest ∧ 0 < behind.column ∧ plainSpaces cursor = (between, ended, behind)) :
    ReadsPlain (word ++ gap ++ rest) (word ++ between ++ text) := by
  intro cursor fuel outer allowKey eq enough
  rw [List.append_assoc] at eq enough
  have longer : 0 < word.length := List.length_pos_iff.2 isWord.ne_nil
  obtain ⟨fuel, rfl⟩ : ∃ n, fuel = n + 1 := Nat.exists_eq_succ_of_ne_zero (by omega)
  have inLine : 0 < (cursor.forward word.length).column := by
    rw [isWord.forward eq]
    exact Nat.add_pos_right _ longer
  have enoughBehind : rest.length < fuel := by
    simp only [List.length_append] at enough
    omega
  obtain ⟨behind, there, column, read⟩ := spaces _ (congrArg Cursor.rest (isWord.forward eq)) inLine
  obtain ⟨last, atEnd, readMore⟩ := reads behind fuel between ended there enoughBehind
  refine ⟨last, atEnd, ?_⟩
  have noEnd : behind.peek ≠ '#' := by
    cases rest with
    | nil => simp [Cursor.peek_nil there]
    | cons c rest => simpa [Cursor.peek_of_rest there] using noHash
  rw [plainFrom_word 1 _ _ _ isWord (plainWord_gap isGap) eq]
  simp [read, ne, noEnd, readMore, show ¬ (behind.column : Int) < 1 by omega]

/-- A word with spaces behind it, and what follows in the same line. -/
theorem ReadsPlain.spaces {n : Nat} (reads : ReadsPlain rest text) (isWord : IsPlainWord word) (solid : IsSolid rest)
    (noHash : rest.headD '\x00' ≠ '#') :
    ReadsPlain (word ++ List.replicate (n + 1) ' ' ++ rest) (word ++ List.replicate (n + 1) ' ' ++ text) := by
  refine reads.behindWord _ _ false isWord noHash (by simp [List.replicate_succ, isGap, isSpaceOrEnd]) (by simp)
    fun cursor eq inLine => ?_
  obtain ⟨c, behind, rfl, noGap⟩ := solid.exists_cons
  have differs : c ≠ ' ' := by
    rintro rfl
    simp [isGap, isSpaceOrEnd] at noGap
  have spanned : cursor.span (· = ' ') = (List.replicate (n + 1) ' ', cursor.forward (n + 1)) := by
    simpa using Cursor.span_eq (p := (· = ' ')) (by simp) (by simpa using differs) eq
  have there : (cursor.forward (n + 1)) =
      ⟨c :: behind, cursor.index + (n + 1), cursor.line, cursor.column + (n + 1)⟩ := by
    simpa using Cursor.forward_append (List.replicate (n + 1) ' ') (by simp) eq
  refine ⟨cursor.forward (n + 1), congrArg Cursor.rest there, ?_, ?_⟩
  · rw [there]
    exact Nat.add_pos_left inLine _
  · simp [plainSpaces, spanned, there, Cursor.peek, isBreak_of_not_isGap noGap]

/-- A word at the end of a line, and what follows in the next one. -/
theorem ReadsPlain.feed (reads : ReadsPlain rest text) (isWord : IsPlainWord word) (solid : IsSolid rest)
    (noHash : rest.headD '\x00' ≠ '#') : ReadsPlain (word ++ '\n' :: ' ' :: ' ' :: rest) (word ++ ' ' :: text) := by
  have read := reads.behindWord [' '] ['\n', ' ', ' '] true isWord noHash
    (by simp [isGap, isSpaceOrEnd, isLineEnd, isBreak]) (by simp) fun cursor eq inLine => ?_
  · simpa using read
  obtain ⟨c, behind, rfl, noGap⟩ := solid.exists_cons
  have differs : c ≠ ' ' := by
    rintro rfl
    simp [isGap, isSpaceOrEnd] at noGap
  obtain ⟨start, index, line, column⟩ := cursor
  obtain rfl : start = '\n' :: ' ' :: ' ' :: c :: behind := eq
  have indented (fuel : Nat) : plainBreaks (fuel + 3) ⟨' ' :: ' ' :: c :: behind, index + 1, line + 1, 0⟩ =
      (some [], ⟨c :: behind, index + 3, line + 1, 2⟩) := by
    simp [plainBreaks, Cursor.peek, Cursor.step, differs, isBreak_of_not_isGap noGap]
  refine ⟨⟨c :: behind, index + 3, line + 1, 2⟩, rfl, by simp, ?_⟩
  simp [plainSpaces, Cursor.span, Cursor.forward, Cursor.peek, Cursor.lineBreak, Cursor.step, Cursor.atSeparator,
    show isBreak '\n' = true from rfl, indented, foldBreak]

end
end Flowchart.Yaml.Scalar
