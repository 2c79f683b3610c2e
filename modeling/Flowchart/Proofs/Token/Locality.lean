import Flowchart.Proofs.Diagram.EdgeLabels
import Flowchart.Proofs.Diagram.Texts
import Mathlib.Data.List.TakeWhile

/-!
How far the scanner looks. A lexeme is decided by its own characters and by the one character behind it, which must not
go on with a word or make an arrow of a dashed link. So whatever else is put behind a lexeme leaves it as it is.
-/
namespace Flowchart

namespace Text

variable {mark closer cs text rest : List Char} {forbidden : Char → Bool}

/-- The closing mark of a search, at the head of a text. -/
theorem strip_eq_none (behind : ¬closer <+: cs) :
    ((stripPrefix? closer cs).map fun rest => ((), rest)) = none := by
  rw [Option.map_eq_none_iff, Option.eq_none_iff_forall_ne_some]
  intro rest found
  exact behind ⟨rest, (stripPrefix?_eq_some_iff.1 found).symm⟩

/-- A search stops at the first place that it can stop at. -/
theorem passes_of_scanTo? {β : Type} {found? : List Char → Option (β × List Char)} {what : β}
    (h : scanTo? found? forbidden cs = some (text, what, rest)) :
    ∃ c tail, cs = text ++ c :: tail ∧ forbidden c = false ∧ found? (c :: tail) = some (what, rest) ∧
      ∀ front d back, text = front ++ d :: back →
        forbidden d = false ∧ found? (d :: (back ++ c :: tail)) = none := by
  induction cs generalizing text with
  | nil => cases h
  | cons c cs ih =>
    rw [scanTo?] at h
    split at h
    · cases h
    · rename_i allowed
      split at h
      · rename_i found
        cases h
        exact ⟨c, cs, rfl, by simpa using allowed, found, fun front _ _ split => by simp at split⟩
      · rename_i none
        obtain ⟨⟨text, _, _⟩, inner, same⟩ := Option.map_eq_some_iff.1 h
        cases same
        obtain ⟨e, tail, rfl, allowedEnd, found, passes⟩ := ih inner
        refine ⟨e, tail, rfl, allowedEnd, found, ?_⟩
        intro front d back split
        cases front with
        | nil =>
          obtain ⟨rfl, rfl⟩ := List.cons.inj split
          exact ⟨by simpa using allowed, none⟩
        | cons _ front => exact passes front d back (List.cons.inj split).2

/-- A search for a mark stops there whatever follows the mark. -/
theorem scanTo?_mark (marks : closer ≠ [])
    (h : scanTo? (fun tail => (stripPrefix? closer tail).map fun rest => ((), rest)) forbidden cs =
      some (text, (), rest)) :
    cs = text ++ (closer ++ rest) ∧ ∀ other,
      scanTo? (fun tail => (stripPrefix? closer tail).map fun rest => ((), rest)) forbidden
        (text ++ (closer ++ other)) = some (text, (), other) := by
  obtain ⟨c, tail, isText, allowed, found, passes⟩ := passes_of_scanTo? h
  obtain ⟨_, stripped, same⟩ := Option.map_eq_some_iff.1 found
  cases same
  have isTail := stripPrefix?_eq_some_iff.1 stripped
  refine ⟨by rw [isText, isTail], fun other => ?_⟩
  obtain ⟨first, more, rfl⟩ := List.exists_cons_of_ne_nil marks
  rw [List.cons_append] at isTail
  obtain ⟨rfl, rfl⟩ := List.cons.inj isTail
  have stops : ((stripPrefix? (c :: more) (c :: (more ++ other))).map fun rest => ((), rest)) =
      some ((), other) := by
    rw [← List.cons_append, stripPrefix?_append, Option.map_some]
  refine scanTo?_behind ?_ allowed stops
  intro front d back split
  obtain ⟨plain, none⟩ := passes front d back split
  refine ⟨plain, strip_eq_none fun isPrefix => ?_⟩
  -- The mark would lie in what is read up to the end of the mark, which does not depend on what follows.
  have within : c :: more <+: d :: (back ++ c :: more) :=
    List.prefix_of_prefix_length_le isPrefix ⟨other, by simp⟩ (by simp; omega)
  obtain ⟨less, isLess⟩ := within.trans (List.prefix_append _ rest)
  have reached : d :: (back ++ c :: (more ++ rest)) = c :: more ++ less := by simpa using isLess.symm
  rw [reached, stripPrefix?_append] at none
  cases none

/-- Whether a mark stands at the head of a text depends on as many characters as the mark has. -/
theorem stripPrefix?_eq_none_append (short : mark.length ≤ cs.length) (absent : stripPrefix? mark (cs ++ rest) = none)
    (other : List Char) : stripPrefix? mark (cs ++ other) = none := by
  refine Option.eq_none_iff_forall_ne_some.2 fun behind found => ?_
  have isPrefix : mark <+: cs ++ other := ⟨behind, (stripPrefix?_eq_some_iff.1 found).symm⟩
  obtain ⟨less, rfl⟩ := List.prefix_of_prefix_length_le isPrefix (List.prefix_append _ _) short
  rw [List.append_assoc, stripPrefix?_append] at absent
  cases absent

end Text

namespace Lexeme

variable {cs body rest : List Char} {lexeme : Lexeme} {shape : Shape} {style : EdgeStyle} {c : Char}

theorem readLabel_quoted {lead : List Char} (spaces : ∀ c ∈ lead, isSpace c = true) (cs : List Char) :
    readLabel shape (lead ++ '"' :: cs) = readQuoted shape lead cs := by
  have isQuote : ∀ c ∈ ('"' :: cs).head?, isSpace c = false := by simp [isSpace]
  obtain ⟨taken, dropped⟩ := Text.span_append spaces isQuote
  rw [readLabel, taken, dropped]
  rfl

theorem readLabel_bare {lead : List Char} (spaces : ∀ c ∈ lead, isSpace c = true)
    (first : ∀ c ∈ cs.head?, isSpace c = false ∧ c ≠ '"') : readLabel shape (lead ++ cs) = readBare shape lead cs := by
  obtain ⟨taken, dropped⟩ := Text.span_append spaces fun c mem => (first c mem).1
  rw [readLabel, taken, dropped]
  cases cs with
  | nil => rfl
  | cons c cs =>
    have noQuote := (first c rfl).2
    split
    · rename_i isQuote
      exact absurd (List.cons.inj isQuote).1 noQuote
    · rfl

/-- A label is read off its own characters, whatever follows its closing bracket. -/
theorem readLabel_append (h : readLabel shape cs = .ok (lexeme, rest)) :
    ∃ body, lexeme.chars = shape.opener ++ body ∧ body ≠ [] ∧ cs = body ++ rest ∧
      ∀ other, readLabel shape (body ++ other) = .ok (lexeme, other) := by
  have whole := @List.takeWhile_append_dropWhile _ isSpace cs
  have lead : ∀ c ∈ cs.takeWhile isSpace, isSpace c = true := fun c mem => List.mem_takeWhile_imp mem
  simp only [readLabel] at h
  split at h
  · rename_i inside isQuote
    simp only [readQuoted] at h
    split at h
    · cases h
    · rename_i inner _ behind found
      obtain ⟨isInside, closes⟩ := Text.scanTo?_mark (List.cons_ne_nil '"' []) found
      have trail := @List.takeWhile_append_dropWhile _ isSpace behind
      split at h
      · rename_i stripped
        cases h
        have isRest := Text.stripPrefix?_eq_some_iff.1 stripped
        refine ⟨cs.takeWhile isSpace ++ '"' :: inner ++ '"' :: behind.takeWhile isSpace ++ shape.closer, ?_, ?_, ?_, ?_⟩
        · simp [chars]
        · simp
        · rw [isRest] at trail
          rw [isQuote, isInside, ← trail] at whole
          simpa using whole.symm
        · intro other
          have isClosed : ∀ c ∈ (shape.closer ++ other).head?, isSpace c = false := by
            cases shape <;> simp [Shape.closer, isSpace]
          have spaces : ∀ c ∈ behind.takeWhile isSpace, isSpace c = true := fun c mem => List.mem_takeWhile_imp mem
          obtain ⟨taken, dropped⟩ := Text.span_append spaces isClosed
          have closed := closes (behind.takeWhile isSpace ++ (shape.closer ++ other))
          simp only [List.append_assoc, List.cons_append, List.nil_append] at closed ⊢
          rw [readLabel_quoted lead, readQuoted, closed]
          simp only [taken, dropped, Text.stripPrefix?_append]
      · split at h <;> cases h
  · rename_i noQuote
    simp only [readBare] at h
    split at h
    · rename_i inner _ _ found
      cases h
      obtain ⟨isInside, closes⟩ := Text.scanTo?_mark (shape_closer_ne_nil shape) found
      refine ⟨cs.takeWhile isSpace ++ inner ++ shape.closer, by simp [chars], by simp [shape_closer_ne_nil], ?_, ?_⟩
      · rw [isInside] at whole
        simpa using whole.symm
      · intro other
        have sameHead : (inner ++ (shape.closer ++ other)).head? = (cs.dropWhile isSpace).head? := by
          rw [isInside]
          cases inner <;> cases shape <;> rfl
        have first : ∀ c ∈ (inner ++ (shape.closer ++ other)).head?, isSpace c = false ∧ c ≠ '"' := by
          rw [sameHead]
          refine fun c mem => ⟨?_, ?_⟩
          · have := List.head?_dropWhile_not isSpace cs
            simpa [Option.mem_def.1 mem] using this
          · rintro rfl
            obtain ⟨tail, isTail⟩ := List.head?_eq_some_iff.1 mem
            exact noQuote tail isTail
        rw [List.append_assoc, List.append_assoc, readLabel_bare lead first, readBare, closes]
    · cases h

/-- The bracket in front of a label is told by the characters of the label. -/
theorem readBracket?_append (some_ : body ≠ [])
    (opens : readBracket? (shape.opener ++ (body ++ rest)) = some (shape, body ++ rest)) (other : List Char) :
    readBracket? (shape.opener ++ (body ++ other)) = some (shape, body ++ other) := by
  obtain ⟨c, body, rfl⟩ := List.exists_cons_of_ne_nil some_
  cases shape
  case rounded =>
    -- a second round bracket would make it the circle
    have single : '(' ≠ c := by
      rintro rfl
      simp [readBracket?, Shape.all, Shape.opener, Text.stripPrefix?] at opens
    simp [readBracket?, Shape.all, Shape.opener, Text.stripPrefix?, single]
  all_goals simp [readBracket?, Shape.all, Shape.opener, Text.stripPrefix?]

/-- A label between brackets is read wherever it stands. -/
theorem read_of_readLabel {c : Char} (opens : readBracket? (c :: cs) = some (shape, body))
    (h : readLabel shape body = .ok (lexeme, rest)) : ∃ tail, lexeme.chars = c :: tail ∧ cs = tail ++ rest ∧
      ∀ other, read c (tail ++ other) = .ok (lexeme, other) := by
  have split := eq_append_of_readBracket? opens
  obtain ⟨body, isChars, some, rfl, labelled⟩ := readLabel_append h
  rw [split] at opens
  have bracket := readBracket?_append some opens
  obtain ⟨d, more, isOpener, isMark⟩ :
      ∃ d more, shape.opener = d :: more ∧ (d = '(' ∨ d = '[' ∨ d = '\x7b') := by
    cases shape <;> simp [Shape.opener]
  rw [isOpener] at split isChars bracket
  rw [List.cons_append] at split
  obtain ⟨rfl, rfl⟩ := List.cons.inj split
  refine ⟨more ++ body, isChars, by rw [List.append_assoc], fun other => ?_⟩
  have bracket := bracket other
  rw [List.cons_append] at bracket
  rcases isMark with rfl | rfl | rfl <;> simp [read, bracket, labelled]

/-- What stands behind the lexeme does not go on with it. -/
def Follows (rest : List Char) : Lexeme → Prop
  | word _ => Free rest
  | _ => ∀ c ∈ rest.head?, c ≠ '>'

theorem follows_of_free (lexeme : Lexeme) (free : Free rest) : lexeme.Follows rest := by
  cases lexeme with
  | word => exact free
  | _ => exact fun c mem => (free c mem).2

/-- Only the first character behind a lexeme counts. -/
theorem follows_congr {other : List Char} (same : other.head? = rest.head?) (follows : lexeme.Follows rest) :
    lexeme.Follows other := by
  cases lexeme <;> simp only [Follows, Free, same] at follows ⊢ <;> exact follows

/-- No lexeme starts with a blank, a percent sign or the head of an arrow. -/
theorem read_unexpected (mark : c ∈ [' ', '\t', '\r', '%', '>']) (cs : List Char) :
    read c cs = .error (.unexpected c, []) := by
  have noLexeme : isWordChar c = false ∧ c ≠ '\n' ∧ c ≠ ';' ∧ c ≠ '|' ∧ '(' ≠ c ∧ '[' ≠ c ∧ '\x7b' ≠ c ∧ '-' ≠ c ∧
      '=' ≠ c := by
    simp only [List.mem_cons, List.not_mem_nil, or_false] at mark
    rcases mark with rfl | rfl | rfl | rfl | rfl <;> decide
  obtain ⟨notWord, notLine, notSemicolon, notBar, notRound, notSquare, notCurly, notDash, notDouble⟩ := noLexeme
  simp [read, notWord, notLine, notSemicolon, notBar, readBracket?, Shape.all, Shape.opener, readArrow?,
    EdgeStyle.arrows, EdgeStyle.arrow, EdgeStyle.closer, readLinkStart?, EdgeStyle.all, EdgeStyle.opener,
    Text.stripPrefix?, notRound, notSquare, notCurly, notDash, notDouble]

theorem visible_of_read (h : read c cs = .ok (lexeme, rest)) : Visible c ∧ c ≠ '>' := by
  have expected : c ∉ [' ', '\t', '\r', '%', '>'] := fun mark => by
    rw [read_unexpected mark] at h
    cases h
  simpa [Visible, and_assoc] using expected

/-- That no arrow is read is decided by four characters, and that no link is closed by three. -/
theorem readArrow?_eq_none_append (long : 4 ≤ cs.length) (absent : readArrow? (cs ++ rest) = none) (other : List Char) :
    readArrow? (cs ++ other) = none := by
  refine List.findSome?_eq_none_iff.2 fun ⟨style, head⟩ mem => ?_
  have noArrow := List.findSome?_eq_none_iff.1 absent (style, head) mem
  rw [Option.map_eq_none_iff] at noArrow ⊢
  refine Text.stripPrefix?_eq_none_append ?_ noArrow other
  cases style <;> cases head <;> simp [EdgeStyle.arrow, EdgeStyle.closer] <;> omega

theorem readCloser?_eq_none_append (long : 3 ≤ cs.length) (absent : readCloser? style (cs ++ rest) = none)
    (other : List Char) : readCloser? style (cs ++ other) = none := by
  refine List.findSome?_eq_none_iff.2 fun head mem => ?_
  have noCloser := List.findSome?_eq_none_iff.1 absent head mem
  rw [Option.map_eq_none_iff] at noCloser ⊢
  refine Text.stripPrefix?_eq_none_append ?_ noCloser other
  cases style <;> cases head <;> simp [EdgeStyle.closer] <;> omega

theorem two_le_length_closer (style : EdgeStyle) (head : Bool) : 2 ≤ (style.closer head).length := by
  cases style <;> cases head <;> decide

/-- The rest of a link is read again up to its close. -/
theorem readInlineLabel_append (h : readInlineLabel style cs = .ok (lexeme, rest)) :
    ∃ inner head, lexeme = inlineLabel style inner head ∧ cs = inner ++ (style.closer head ++ rest) ∧
      ∀ other, (∀ c ∈ other.head?, c ≠ '>') →
        readInlineLabel style (inner ++ (style.closer head ++ other)) = .ok (lexeme, other) := by
  unfold readInlineLabel at h
  split at h
  · rename_i inner head _ found
    cases h
    obtain ⟨c, tail, rfl, allowed, closes, passes⟩ := Text.passes_of_scanTo? found
    have isClose := eq_append_of_readCloser? closes
    refine ⟨inner, head, rfl, by rw [isClose], fun other noHead => ?_⟩
    obtain ⟨first, more, isCloser⟩ := List.exists_cons_of_ne_nil (closer_ne_nil style head)
    have again := readCloser?_append style head noHead
    rw [isCloser, List.cons_append] at isClose again
    obtain ⟨rfl, rfl⟩ := List.cons.inj isClose
    rw [readInlineLabel, isCloser, List.cons_append, Text.scanTo?_behind ?_ allowed again]
    intro front d back split
    obtain ⟨plain, absent⟩ := passes front d back split
    refine ⟨plain, ?_⟩
    -- A close that started in the label would end in front of the last character of this one.
    have long : 3 ≤ (d :: (back ++ c :: more)).length := by
      have size := two_le_length_closer style head
      rw [isCloser] at size
      simp only [List.length_cons, List.length_append] at size ⊢
      omega
    have again := readCloser?_eq_none_append long (by simpa using absent) other
    simpa using again
  · cases h

theorem readArrow?_cases (found : readArrow? cs = some (lexeme, rest)) :
    ∃ style head, lexeme = arrow style head ∧ cs = style.arrow head ++ rest := by
  obtain ⟨⟨style, head⟩, -, isArrow⟩ := List.exists_of_findSome?_eq_some found
  obtain ⟨_, stripped, same⟩ := Option.map_eq_some_iff.1 isArrow
  cases same
  exact ⟨style, head, rfl, Text.stripPrefix?_eq_some_iff.1 stripped⟩

theorem readLinkStart?_append (style : EdgeStyle) (cs : List Char) :
    readLinkStart? (style.opener ++ cs) = some (style, cs) := by
  cases style <;> rfl

/-- A link around its label is read again up to its close. -/
theorem read_of_readInlineLabel {inside : List Char} (noArrow : readArrow? (c :: cs) = none)
    (opens : readLinkStart? (c :: cs) = some (style, inside)) (h : readInlineLabel style inside = .ok (lexeme, rest)) :
    ∃ tail, lexeme.chars = c :: tail ∧ cs = tail ++ rest ∧
      ∀ other, lexeme.Follows other → read c (tail ++ other) = .ok (lexeme, other) := by
  have split := eq_append_of_readLinkStart? opens
  obtain ⟨inner, head, rfl, rfl, labelled⟩ := readInlineLabel_append h
  obtain ⟨d, more, isOpener, isMark⟩ : ∃ d more, style.opener = d :: more ∧ (d = '-' ∨ d = '=') := by
    cases style <;> simp [EdgeStyle.opener]
  have size : style.opener.length = 2 := by cases style <;> rfl
  have closerSize := two_le_length_closer style head
  have chars : style.opener ++ inner ++ style.closer head = d :: (more ++ inner ++ style.closer head) := by
    rw [isOpener, List.cons_append, List.cons_append]
  have longEnough : 4 ≤ (style.opener ++ inner ++ style.closer head).length := by
    simp only [List.length_append]
    omega
  rw [split] at noArrow
  have noArrow := readArrow?_eq_none_append longEnough (by simpa using noArrow)
  rw [isOpener] at split
  obtain ⟨rfl, rfl⟩ := List.cons.inj split
  refine ⟨more ++ inner ++ style.closer head, chars, by simp, fun other noHead => ?_⟩
  have started := readLinkStart?_append style (inner ++ (style.closer head ++ other))
  have noArrow := noArrow other
  rw [chars, List.cons_append] at noArrow
  rw [isOpener, List.cons_append] at started
  have noBracket : readBracket? (c :: (more ++ (inner ++ (style.closer head ++ other)))) = none := by
    rcases isMark with rfl | rfl <;> simp [readBracket?, Shape.all, Shape.opener, Text.stripPrefix?]
  simp only [List.append_assoc] at noArrow ⊢
  rcases isMark with rfl | rfl <;> simp [read, noBracket, noArrow, started, labelled other noHead]

/-- A lexeme is read off its own characters again, whatever follows that does not go on with it. -/
theorem read_append (h : read c cs = .ok (lexeme, rest)) : ∃ tail, lexeme.chars = c :: tail ∧ cs = tail ++ rest ∧
    ∀ other, lexeme.Follows other → read c (tail ++ other) = .ok (lexeme, other) := by
  unfold read at h
  split at h
  · rename_i isEnd
    cases h
    exact ⟨[], rfl, rfl, fun other _ => if_pos isEnd⟩
  split at h
  · rename_i isBar
    subst isBar
    unfold readPipeLabel at h
    split at h
    · rename_i inner _ _ found
      cases h
      obtain ⟨rfl, closes⟩ := Text.scanTo?_mark (List.cons_ne_nil '|' []) found
      refine ⟨inner ++ ['|'], rfl, by simp, fun other _ => ?_⟩
      have closed := closes other
      rw [List.singleton_append] at closed
      simp [read, readPipeLabel, closed]
    · cases h
  split at h
  · rename_i opens
    obtain ⟨tail, isChars, split, reads⟩ := read_of_readLabel opens h
    exact ⟨tail, isChars, split, fun other _ => reads other⟩
  split at h
  · rename_i found
    cases h
    obtain ⟨style, head, rfl, split⟩ := readArrow?_cases found
    obtain ⟨d, tail, isArrow, -, reads⟩ := read_arrow style head
    rw [isArrow] at split
    obtain ⟨rfl, rfl⟩ := List.cons.inj split
    exact ⟨tail, isArrow, rfl, reads⟩
  split at h
  · rename_i noArrow _ _ _ opens
    exact read_of_readInlineLabel noArrow opens h
  split at h
  · rename_i isWord
    cases h
    have word : (c :: cs).takeWhile isWordChar = c :: cs.takeWhile isWordChar := List.takeWhile_cons_of_pos isWord
    have areWord : ∀ d ∈ c :: cs.takeWhile isWordChar, isWordChar d = true :=
      List.forall_mem_cons.2 ⟨isWord, fun d mem => List.mem_takeWhile_imp mem⟩
    obtain ⟨d, tail, same, -, reads⟩ := readable_word areWord
    obtain ⟨rfl, rfl⟩ := List.cons.inj same
    rw [word, List.dropWhile_cons_of_pos isWord]
    exact ⟨_, rfl, List.takeWhile_append_dropWhile.symm, reads⟩
  · cases h

/-- What is read off its own characters once is so wherever it stands. -/
theorem readable_of_read (h : read c cs = .ok (lexeme, rest)) : Readable lexeme := by
  obtain ⟨tail, isChars, -, reads⟩ := read_append h
  exact ⟨c, tail, isChars, (visible_of_read h).1, fun other free => reads other (follows_of_free lexeme free)⟩

end Lexeme
end Flowchart
