import Flowchart.Token.Lexer

/-!
Reading back what was written. A text is followed through the scanner with what stands behind it in
view, since a word or an arrow ends only where the next character cannot go on with it.
-/
namespace Flowchart

namespace Text

/-- A search passes over the places of a text at which it neither stops nor ends. -/
theorem scanTo?_behind {β : Type} {found? : List Char → Option (β × List Char)} {forbidden : Char → Bool}
    {text cs rest : List Char} {c : Char} {what : β}
    (passes : ∀ front d back, text = front ++ d :: back →
      forbidden d = false ∧ found? (d :: (back ++ c :: cs)) = none)
    (allowed : forbidden c = false) (found : found? (c :: cs) = some (what, rest)) :
    scanTo? found? forbidden (text ++ c :: cs) = some (text, what, rest) := by
  induction text with
  | nil => simp [scanTo?, allowed, found]
  | cons d text ih =>
    obtain ⟨plain, none⟩ := passes [] d text rfl
    have behind := ih fun front e back split => passes (d :: front) e back (by rw [split, List.cons_append])
    simp [scanTo?, plain, none, behind]

/-- A search passes over characters at which it neither stops nor ends. -/
theorem scanTo?_append {β : Type} {found? : List Char → Option (β × List Char)} {forbidden : Char → Bool}
    {text cs rest : List Char} {c : Char} {what : β}
    (passes : ∀ d ∈ text, forbidden d = false ∧ ∀ ds, found? (d :: ds) = none)
    (allowed : forbidden c = false) (found : found? (c :: cs) = some (what, rest)) :
    scanTo? found? forbidden (text ++ c :: cs) = some (text, what, rest) := by
  refine scanTo?_behind ?_ allowed found
  rintro front d back rfl
  obtain ⟨plain, none⟩ := passes d (List.mem_append_right _ List.mem_cons_self)
  exact ⟨plain, none _⟩

theorem stripPrefix?_single {c d : Char} (other : d ≠ c) (cs : List Char) : stripPrefix? [c] (d :: cs) = none := by
  simp [stripPrefix?, other.symm]

end Text

namespace Lexeme

/-- What may stand behind a lexeme without changing it. -/
def Free (rest : List Char) : Prop :=
  ∀ c ∈ rest.head?, isWordChar c = false ∧ c ≠ '>'

/-- A character that no blank and no comment starts with. -/
def Visible (c : Char) : Prop :=
  c ≠ ' ' ∧ c ≠ '\t' ∧ c ≠ '\r' ∧ c ≠ '%'

instance (c : Char) : Decidable (Visible c) :=
  inferInstanceAs (Decidable (_ ∧ _))

/-- The lexeme is read off its own characters. -/
def Readable (lexeme : Lexeme) : Prop :=
  ∃ c cs, lexeme.chars = c :: cs ∧ Visible c ∧ ∀ rest, Free rest → read c (cs ++ rest) = .ok (lexeme, rest)

theorem takeWhile_word {word rest : List Char} (isWord : ∀ c ∈ word, isWordChar c = true) (free : Free rest) :
    (word ++ rest).takeWhile isWordChar = word ∧ (word ++ rest).dropWhile isWordChar = rest :=
  Text.span_append isWord fun c first => (free c first).1

theorem readable_word {c : Char} {cs : List Char} (isWord : ∀ d ∈ c :: cs, isWordChar d = true) :
    Readable (word (c :: cs)) := by
  have other (d : Char) (isMark : isWordChar d = false) : c ≠ d := by
    rintro rfl
    rw [isWord c List.mem_cons_self] at isMark
    cases isMark
  have marks : c ≠ '\n' ∧ c ≠ ';' ∧ c ≠ '|' ∧ c ≠ '(' ∧ c ≠ '[' ∧ c ≠ '\x7b' ∧ c ≠ '-' ∧ c ≠ '=' := by
    refine ⟨?_, ?_, ?_, ?_, ?_, ?_, ?_, ?_⟩ <;> exact other _ (by decide)
  have visible : Visible c := by
    refine ⟨?_, ?_, ?_, ?_⟩ <;> exact other _ (by decide)
  refine ⟨c, cs, rfl, visible, ?_⟩
  intro rest free
  obtain ⟨taken, dropped⟩ := takeWhile_word isWord free
  obtain ⟨notLine, notSemicolon, notBar, notRound, notSquare, notCurly, notDash, notDouble⟩ := marks
  have noBracket : readBracket? (c :: (cs ++ rest)) = none := by
    simp [readBracket?, Shape.all, Shape.opener, Text.stripPrefix?, notRound.symm, notSquare.symm,
      notCurly.symm]
  have noArrow : readArrow? (c :: (cs ++ rest)) = none := by
    simp [readArrow?, EdgeStyle.arrows, EdgeStyle.arrow, EdgeStyle.closer, Text.stripPrefix?,
      notDash.symm, notDouble.symm]
  have noStart : readLinkStart? (c :: (cs ++ rest)) = none := by
    simp [readLinkStart?, EdgeStyle.all, EdgeStyle.opener, Text.stripPrefix?, notDash.symm, notDouble.symm]
  rw [List.cons_append] at taken dropped
  simp [read, notLine, notSemicolon, notBar, noBracket, noArrow, noStart, isWord, taken, dropped]

theorem readArrow?_append (style : EdgeStyle) (head : Bool) {rest : List Char} (noHead : ∀ c ∈ rest.head?, c ≠ '>') :
    readArrow? (style.arrow head ++ rest) = some (arrow style head, rest) := by
  cases style <;> cases head
  case dashed.false =>
    -- a following angle bracket would make it the dashed link with a head
    cases rest with
    | nil => rfl
    | cons d rest =>
      have notHead : '>' ≠ d := (noHead d rfl).symm
      simp [readArrow?, EdgeStyle.arrows, EdgeStyle.arrow, EdgeStyle.closer, Text.stripPrefix?, notHead]
  all_goals rfl

theorem read_arrow (style : EdgeStyle) (head : Bool) : ∃ c cs, style.arrow head = c :: cs ∧ Visible c ∧
    ∀ rest : List Char, (∀ d ∈ rest.head?, d ≠ '>') → read c (cs ++ rest) = .ok (arrow style head, rest) := by
  obtain ⟨c, cs, eq, isMark⟩ : ∃ c cs, style.arrow head = c :: cs ∧ (c = '-' ∨ c = '=') := by
    cases style <;> cases head <;> simp [EdgeStyle.arrow, EdgeStyle.closer]
  have visible : Visible c := by rcases isMark with rfl | rfl <;> decide
  refine ⟨c, cs, eq, visible, ?_⟩
  intro rest noHead
  have found := readArrow?_append style head noHead
  rw [eq, List.cons_append] at found
  have noBracket : readBracket? (c :: (cs ++ rest)) = none := by
    rcases isMark with rfl | rfl <;> simp [readBracket?, Shape.all, Shape.opener, Text.stripPrefix?]
  rcases isMark with rfl | rfl <;> simp [read, noBracket, found]

theorem readable_arrow (style : EdgeStyle) (head : Bool) : Readable (arrow style head) := by
  obtain ⟨c, cs, eq, visible, reads⟩ := read_arrow style head
  exact ⟨c, cs, eq, visible, fun rest free => reads rest fun d mem => (free d mem).2⟩

theorem readable_pipeLabel {inner : List Char} (plain : ∀ c ∈ inner, c ≠ '|' ∧ c ≠ '\n') :
    Readable (pipeLabel inner) := by
  refine ⟨'|', inner ++ ['|'], rfl, by decide, ?_⟩
  intro rest _
  have closes : Text.scanTo? (fun tail => (Text.stripPrefix? ['|'] tail).map fun rest => ((), rest))
      (· = '\n') (inner ++ '|' :: rest) = some (inner, (), rest) := by
    refine Text.scanTo?_append ?_ (by decide) (by simp [Text.stripPrefix?])
    intro c mem
    obtain ⟨notBar, notLine⟩ := plain c mem
    exact ⟨by simpa using notLine, fun cs => by rw [Text.stripPrefix?_single notBar, Option.map_none]⟩
  simp [read, readPipeLabel, closes]

theorem readable_quotedLabel (shape : Shape) {inner : List Char}
    (plain : ∀ c ∈ inner, c ≠ '"' ∧ c ≠ '\n') : Readable (quotedLabel shape [] inner []) := by
  have noSpace : shape.closer ≠ [] ∧ ∀ rest, (shape.closer ++ rest).takeWhile isSpace = [] ∧
      (shape.closer ++ rest).dropWhile isSpace = shape.closer ++ rest := by
    cases shape <;> simp [Shape.closer, isSpace]
  have closes (rest : List Char) :
      Text.scanTo? (fun tail => (Text.stripPrefix? ['"'] tail).map fun rest => ((), rest)) (· = '\n')
        (inner ++ '"' :: (shape.closer ++ rest)) = some (inner, (), shape.closer ++ rest) := by
    refine Text.scanTo?_append ?_ (by decide) (by simp [Text.stripPrefix?])
    intro c mem
    obtain ⟨notQuote, notLine⟩ := plain c mem
    exact ⟨by simpa using notLine, fun cs => by rw [Text.stripPrefix?_single notQuote, Option.map_none]⟩
  have labelled (rest : List Char) :
      readLabel shape ('"' :: (inner ++ '"' :: (shape.closer ++ rest))) =
        .ok (quotedLabel shape [] inner [], rest) := by
    simp [readLabel, isSpace, readQuoted, closes, noSpace, Text.stripPrefix?_append]
  have opens (rest : List Char) :
      readBracket? (shape.opener ++ '"' :: rest) = some (shape, '"' :: rest) := by
    cases shape <;> rfl
  obtain ⟨c, cs, eq, isMark⟩ : ∃ c cs, shape.opener = c :: cs ∧ (c = '(' ∨ c = '[' ∨ c = '\x7b') := by
    cases shape <;> simp [Shape.opener]
  have visible : Visible c := by rcases isMark with rfl | rfl | rfl <;> decide
  refine ⟨c, cs ++ '"' :: inner ++ '"' :: shape.closer, by simp [chars, eq], visible, ?_⟩
  intro rest _
  have bracket := opens (inner ++ '"' :: (shape.closer ++ rest))
  rw [eq, List.cons_append] at bracket
  rcases isMark with rfl | rfl | rfl <;> simp [read, bracket, labelled]

end Lexeme

namespace Token

variable {cs ds rest : List Char} {spelled other : List Token → Prop}

theorem splitBlanks_visible {c : Char} (visible : Lexeme.Visible c) (cs : List Char) :
    splitBlanks false (c :: cs) = ([], c :: cs) := by
  obtain ⟨notSpace, notTab, notReturn, notPercent⟩ := visible
  simp [splitBlanks, notSpace, notTab, notReturn, notPercent]

/-- One round of the scanner: blanks are passed over and a lexeme is read. -/
theorem scanFrom_step (at_ : Position) (cs : List Char) :
    scanFrom at_ cs =
      match splitBlanks false cs with
      | (blanks, []) => .ok [⟨.endOfInput, "", at_.advance blanks⟩]
      | (blanks, c :: rest) =>
        match Lexeme.read c rest with
        | .error (fault, before) => .error ⟨fault, (at_.advance blanks).advance before⟩
        | .ok (lexeme, behind) => (scanFrom ((at_.advance blanks).advance lexeme.chars) behind).bind
          fun more => .ok (lexeme.tokens (at_.advance blanks) ++ more) := by
  rw [scanFrom.eq_def]
  obtain ⟨blanks, tail⟩ := splitBlanks false cs
  cases tail with
  | nil => rfl
  | cons c rest =>
    dsimp only
    split
    · simp only [*]
    · simp only [*]
      rfl

theorem scanFrom_blank {c : Char} (isBlank : c = ' ' ∨ c = '\t' ∨ c = '\r') (at_ : Position) (cs : List Char) :
    scanFrom at_ (c :: cs) = scanFrom (at_.step c) cs := by
  have split : splitBlanks false (c :: cs) = (c :: (splitBlanks false cs).1, (splitBlanks false cs).2) := by
    rcases isBlank with rfl | rfl | rfl <;> simp [splitBlanks]
  rw [scanFrom_step, scanFrom_step (at_.step c), split]
  obtain ⟨blanks, tail⟩ := splitBlanks false cs
  cases tail <;> rfl

theorem scanFrom_lexeme {lexeme : Lexeme} (readable : lexeme.Readable) (free : Lexeme.Free rest)
    (at_ : Position) :
    scanFrom at_ (lexeme.chars ++ rest) =
      (scanFrom (at_.advance lexeme.chars) rest).bind fun more => .ok (lexeme.tokens at_ ++ more) := by
  obtain ⟨c, cs, eq, visible, reads⟩ := readable
  rw [scanFrom_step]
  simp only [eq, List.cons_append, splitBlanks_visible visible, reads rest free, Position.advance_nil]

/-- The text is scanned to the tokens, wherever it starts and whatever stands freely behind it. -/
def Scans (cs : List Char) (spelled : List Token → Prop) : Prop :=
  ∀ (at_ : Position) (rest : List Char) (ts : List Token), Lexeme.Free rest →
    scanFrom (at_.advance cs) rest = .ok ts → ∃ us, spelled us ∧ scanFrom at_ (cs ++ rest) = .ok (us ++ ts)

theorem scans_mono (scans : Scans cs spelled) (weaker : ∀ ts, spelled ts → other ts) : Scans cs other := by
  intro at_ rest ts free behind
  obtain ⟨us, isSpelled, scanned⟩ := scans at_ rest ts free behind
  exact ⟨us, weaker us isSpelled, scanned⟩

theorem scans_nil : Scans [] (· = []) :=
  fun _ _ _ _ behind => ⟨[], rfl, behind⟩

theorem scans_blank (scans : Scans cs spelled) : Scans (' ' :: cs) spelled := by
  intro at_ rest ts free behind
  obtain ⟨us, isSpelled, scanned⟩ := scans (at_.step ' ') rest ts free behind
  exact ⟨us, isSpelled, (scanFrom_blank (.inl rfl) at_ (cs ++ rest)).trans scanned⟩

theorem scans_lexeme {lexeme : Lexeme} (readable : lexeme.Readable) :
    Scans lexeme.chars fun ts => ∃ at_, ts = lexeme.tokens at_ := by
  intro at_ rest ts free behind
  refine ⟨lexeme.tokens at_, ⟨at_, rfl⟩, ?_⟩
  rw [scanFrom_lexeme readable free, behind]
  rfl

theorem free_append (free : Lexeme.Free ds) (behind : Lexeme.Free rest) : Lexeme.Free (ds ++ rest) := by
  cases ds with
  | nil => exact behind
  | cons d ds => exact free

theorem scans_append (front : Scans cs spelled) (back : Scans ds other) (free : Lexeme.Free ds) :
    Scans (cs ++ ds) fun ts => ∃ us vs, ts = us ++ vs ∧ spelled us ∧ other vs := by
  intro at_ rest ts behind scanned
  rw [Position.advance_append] at scanned
  obtain ⟨vs, isOther, scannedBack⟩ := back _ rest ts behind scanned
  obtain ⟨us, isSpelled, scannedFront⟩ := front at_ (ds ++ rest) (vs ++ ts) (free_append free behind) scannedBack
  exact ⟨us ++ vs, ⟨us, vs, rfl, isSpelled, isOther⟩, by simpa using scannedFront⟩

/-- A line end may be followed by anything. -/
theorem scans_line (front : Scans cs spelled) (back : Scans ds other) :
    Scans (cs ++ '\n' :: ds) fun ts =>
      ∃ us line vs, ts = us ++ line :: vs ∧ line.kind = .newline ∧ spelled us ∧ other vs := by
  intro at_ rest ts free scanned
  rw [Position.advance_append] at scanned
  obtain ⟨vs, isOther, scannedBack⟩ := back ((at_.advance cs).step '\n') rest ts free scanned
  have atLine := scanFrom_step (at_.advance cs) ('\n' :: (ds ++ rest))
  rw [splitBlanks_visible (by decide)] at atLine
  have line : scanFrom (at_.advance cs) ('\n' :: (ds ++ rest)) =
      .ok (⟨.newline, "\n", at_.advance cs⟩ :: (vs ++ ts)) := by
    rw [atLine]
    change Except.bind (scanFrom ((at_.advance cs).step '\n') (ds ++ rest)) _ = _
    rw [scannedBack]
    rfl
  obtain ⟨us, isSpelled, scannedFront⟩ := front at_ ('\n' :: (ds ++ rest)) _
    (fun c mem => by cases mem; decide) line
  refine ⟨us ++ ⟨.newline, "\n", at_.advance cs⟩ :: vs, ⟨us, _, vs, rfl, rfl, isSpelled, isOther⟩, ?_⟩
  simpa using scannedFront

/-- The end of the input comes behind a whole source. -/
theorem scan_of_scans (scans : Scans cs spelled) :
    ∃ us final, final.kind = .endOfInput ∧ spelled us ∧ scan (String.ofList cs) = .ok (us ++ [final]) := by
  have ended (at_ : Position) : scanFrom at_ [] = .ok [⟨.endOfInput, "", at_⟩] := by
    rw [scanFrom]
    rfl
  obtain ⟨us, isSpelled, scanned⟩ := scans .start [] _ (fun c mem => by cases mem) (ended _)
  refine ⟨us, ⟨.endOfInput, "", Position.start.advance cs⟩, rfl, isSpelled, ?_⟩
  simpa [scan] using scanned

end Token
end Flowchart
