import Flowchart.Proofs.Token.Coverage
import Flowchart.Proofs.Token.Locality
import Flowchart.Proofs.Token.Padding

/-!
Pieces of a source read on their own. What a lexeme is depends on its own characters only, as long as nothing behind it
goes on with it, so that the characters of a node are the same node again wherever they stand.
-/
namespace Flowchart

namespace Token

open Position

variable {at_ : Position} {cs gap rest : List Char} {more pre post : List Token} {t opener label closer : Token}

theorem scans_gap {spelled : List Token → Prop} (isGap : ∀ c ∈ gap, IsGap c) (scans : Scans cs spelled) :
    Scans (gap ++ cs) spelled := by
  induction gap with
  | nil => exact scans
  | cons c gap ih =>
    obtain ⟨isFirst, isGap⟩ := List.forall_mem_cons.1 isGap
    intro at_ rest ts free behind
    obtain ⟨us, isSpelled, scanned⟩ := ih isGap (at_.step c) rest ts free behind
    exact ⟨us, isSpelled, (scanFrom_blank isFirst at_ (gap ++ cs ++ rest)).trans scanned⟩

/-- How the tokens of a text come about: one lexeme after another, each behind its gap, and the end of the input. -/
inductive Strung : Position → List Char → List Token → Prop where
  | done {at_ : Position} {gap : List Char} : Strung at_ gap [⟨.endOfInput, "", at_.advance gap⟩]
  | lexeme {at_ : Position} {gap tail rest : List Char} {c : Char} {lexeme : Lexeme} {more : List Token} :
      splitBlanks false (gap ++ c :: tail) = (gap, c :: tail) → Lexeme.read c tail = .ok (lexeme, rest) →
      Strung (at_.advance (gap ++ lexeme.chars)) rest more →
      Strung at_ (gap ++ c :: tail) (lexeme.tokens (at_.advance gap) ++ more)

theorem strung_of_scanFrom {ts : List Token} (scanned : scanFrom at_ cs = .ok ts) : Strung at_ cs ts := by
  fun_induction scanFrom at_ cs generalizing ts with
  | case1 at_ cs blanks =>
    rename_i start inside
    cases scanned
    have whole := splitBlanks_append false cs
    rw [show (splitBlanks false cs).2 = [] from inside, List.append_nil] at whole
    rw [show start = at_.advance cs from congrArg at_.advance whole]
    exact .done
  | case2 => cases scanned
  | case3 at_ cs split start c rest inside lexeme behind read =>
    rename_i ih
    have whole := splitBlanks_append false cs
    rw [show (splitBlanks false cs).2 = c :: rest from inside] at whole
    cases after : scanFrom (start.advance lexeme.chars) behind with
    | error e => simp [after, bind, Except.bind] at scanned
    | ok us =>
      simp only [after, bind, Except.bind, pure, Except.pure, Except.ok.injEq] at scanned
      subst scanned
      have more := ih after
      rw [show start.advance lexeme.chars = at_.advance ((splitBlanks false cs).1 ++ lexeme.chars) from
        (advance_append ..).symm] at more
      have parts : splitBlanks false ((splitBlanks false cs).1 ++ c :: rest) =
          ((splitBlanks false cs).1, c :: rest) := by
        rw [whole]
        exact Prod.ext rfl inside
      exact whole ▸ Strung.lexeme parts read more

/-- A word is scanned as one token, which the rest of the tokens stand behind. -/
theorem cut_identifier (strung : Strung at_ cs (pre ++ t :: post)) (isId : t.kind = .identifier) :
    ∃ front word rest, cs = front ++ (word ++ rest) ∧ (word ≠ [] ∧ ∀ c ∈ word, Lexeme.isWordChar c = true) ∧
      t = ⟨kindOfWord (String.ofList word), String.ofList word, at_.advance front⟩ ∧
      Strung (at_.advance (front ++ word)) rest post := by
  generalize eq : pre ++ t :: post = ts at strung
  induction strung generalizing pre with
  | done =>
    cases pre with
    | nil => cases eq; cases isId
    | cons => simp at eq
  | @lexeme at_ gap tail rest c lexeme more parts read strung ih =>
    rcases append_eq_append_cons eq.symm with ⟨within, isTokens, isPost⟩ | ⟨before, rfl, isMore⟩
    · have isToken : t ∈ lexeme.tokens (at_.advance gap) := isTokens ▸ List.mem_append_right _ List.mem_cons_self
      obtain ⟨text, some⟩ := Lexeme.eq_append_of_read read
      cases lexeme with
      | word word =>
        obtain ⟨rfl, rfl, rfl⟩ : pre = [] ∧ within = [] ∧
            t = ⟨kindOfWord (String.ofList word), String.ofList word, at_.advance gap⟩ := by
          have one := congrArg List.length isTokens
          cases pre <;> cases within <;> simp_all [Lexeme.tokens]
        have isWord := List.all_eq_true.1 (Lexeme.all_isWordChar_of_read read)
        exact ⟨gap, word, rest, by rw [text]; rfl, ⟨some, isWord⟩, rfl, isPost ▸ strung⟩
      | _ => exact absurd isId (Lexeme.kind_ne_identifier (by simp) _ t isToken)
    · obtain ⟨front, word, rest', rfl, isWord, isToken, behind⟩ := ih isMore.symm
      obtain ⟨text, -⟩ := Lexeme.eq_append_of_read read
      refine ⟨gap ++ lexeme.chars ++ front, word, rest', ?_, isWord, ?_, ?_⟩
      · rw [text]
        simp
      · rw [isToken, advance_append _ (gap ++ lexeme.chars)]
      · rwa [List.append_assoc _ front, advance_append _ (gap ++ lexeme.chars)]

/-- A lexeme whose first token is an opening bracket is a label between brackets. -/
theorem bracketed {lexeme : Lexeme} (isLabel : ∀ t ∈ (lexeme.tokens at_).head?, t.kind = .openBracket) :
    (∃ (shape : Shape) (body : List Char), lexeme.chars = shape.opener ++ body) ∧
      (lexeme.tokens at_).length = 3 := by
  cases lexeme with
  | word word =>
    have isBracket : kindOfWord (String.ofList word) = .openBracket := isLabel _ rfl
    have kinds := kindOfWord_cases (String.ofList word)
    simp [isBracket] at kinds
  | bareLabel shape lead inner => exact ⟨⟨shape, lead ++ inner ++ shape.closer, by simp [Lexeme.chars]⟩, rfl⟩
  | quotedLabel shape lead inner trail =>
    exact ⟨⟨shape, lead ++ '"' :: inner ++ '"' :: trail ++ shape.closer, by simp [Lexeme.chars]⟩, rfl⟩
  | _ => simp [Lexeme.tokens] at isLabel

/-- Behind a gap, the tokens of a label between brackets are those of one lexeme, which is read wherever it stands. -/
theorem cut_label (strung : Strung at_ cs (opener :: label :: closer :: post)) (opens : opener.kind = .openBracket) :
    ∃ (gap : List Char) (lexeme : Lexeme) (rest : List Char), cs = gap ++ (lexeme.chars ++ rest) ∧
      (∀ c ∈ gap, IsGap c) ∧ lexeme.Readable ∧ Lexeme.Free lexeme.chars ∧
      lexeme.tokens (at_.advance gap) = [opener, label, closer] := by
  generalize eq : opener :: label :: closer :: post = ts at strung
  cases strung with
  | done => simp at eq
  | @lexeme _ gap tail rest c lexeme more parts read strung =>
    have isFirst : ∀ t ∈ (lexeme.tokens (at_.advance gap)).head?, t.kind = .openBracket := by
      intro t isHead
      obtain ⟨others, isTokens⟩ := List.head?_eq_some_iff.1 isHead
      rw [isTokens] at eq
      exact (List.cons.inj eq).1 ▸ opens
    have readable := Lexeme.readable_of_read read
    obtain ⟨text, -⟩ := Lexeme.eq_append_of_read read
    obtain ⟨⟨shape, body, isChars⟩, size⟩ := bracketed isFirst
    refine ⟨gap, lexeme, rest, by rw [text], ?_, readable, isChars ▸ free_opener shape body, ?_⟩
    · have padding : IsPadding gap (some c) := isPadding_of_splitBlanks parts
      refine padding.isGap rfl ?_
      rintro rfl
      cases read
      simp [Lexeme.tokens] at isFirst
    · exact (List.append_inj (show [opener, label, closer] ++ post = _ from eq) size.symm).1.symm

/-- The tokens of a lexeme are the same at every place, up to their places. -/
theorem tokens_moved (lexeme : Lexeme) (first second : Position) :
    (lexeme.tokens first).map (fun t => (t.kind, t.text)) = (lexeme.tokens second).map fun t => (t.kind, t.text) := by
  cases lexeme <;> rfl

/-- The last token of a lexeme ends where the lexeme does. -/
theorem stop_of_last (lexeme : Lexeme) (at_ : Position) :
    ∀ t ∈ (lexeme.tokens at_).getLast?, t.stop.offset = at_.offset + lexeme.chars.length := by
  have bar : "|".length = 1 := rfl
  cases lexeme
  all_goals
    simp only [Lexeme.tokens, Lexeme.chars, List.getLast?_cons_cons, List.getLast?_singleton, Option.mem_def,
      Option.some.injEq, forall_eq', stop, offset_advance, offset_step, String.length_ofList, String.length_singleton,
      bar, List.length_append, List.length_cons, List.length_nil]
  all_goals omega

end Token

namespace Span

/-- The characters of a source from the start of a range to its end. -/
def excerpt (span : Span) (source : List Char) : List Char :=
  (source.drop span.start.offset.toNat).take (span.stop.offset.toNat - span.start.offset.toNat)

theorem excerpt_eq {span : Span} {source front text back : List Char} (split : source = front ++ (text ++ back))
    (start : span.start.offset = front.length) (stop : span.stop.offset = (front ++ text).length) :
    span.excerpt source = text := by
  simp only [excerpt, start, stop, split, Int.toNat_natCast, List.drop_left, List.length_append,
    Nat.add_sub_cancel_left, List.take_left]

end Span

namespace NodeRef

/-- A text that holds a statement of its own, which mentions the node by the same id, shape and label. -/
def IsReadOff (text : List Char) (ref : NodeRef) : Prop :=
  ∃ tokens, Token.scan (String.ofList text) = .ok tokens ∧ ∃ feed : Feed, feed.all = tokens ∧
    ∃ read span, feed.statements [] [] = .ok [.node read span] ∧
      read.id = ref.id ∧ read.shape = ref.shape ∧ read.label = ref.label

end NodeRef

open Token Grammar

variable {source : List Char} {pre ts post : List Token} {ref : NodeRef}

theorem scans_word_of_kind {word : List Char} (isWord : word ≠ [] ∧ ∀ c ∈ word, Lexeme.isWordChar c = true)
    (isId : kindOfWord (String.ofList word) = .identifier) :
    Scans word fun us => ∃ t, us = [t] ∧ t.kind = .identifier ∧ t.text = String.ofList word := by
  obtain ⟨c, cs, rfl⟩ := List.exists_cons_of_ne_nil isWord.1
  refine scans_mono (scans_lexeme (Lexeme.readable_word isWord.2)) ?_
  rintro us ⟨at_, rfl⟩
  exact ⟨_, rfl, isId, rfl⟩

theorem scans_label_of_tokens {lexeme : Lexeme} {at_ : Position} {opener label closer : Token}
    (readable : lexeme.Readable) (isTokens : lexeme.tokens at_ = [opener, label, closer]) :
    Scans lexeme.chars fun us => ∃ first second third, us = [first, second, third] ∧
      (first.kind = opener.kind ∧ first.text = opener.text) ∧ (second.kind = label.kind ∧ second.text = label.text) ∧
        third.kind = closer.kind ∧ third.text = closer.text := by
  refine scans_mono (scans_lexeme readable) ?_
  rintro us ⟨place, rfl⟩
  have same := tokens_moved lexeme place at_
  rw [isTokens] at same
  obtain ⟨first, second, third, isUs⟩ : ∃ first second third, lexeme.tokens place = [first, second, third] := by
    have size := congrArg List.length same
    rw [List.length_map, List.length_map] at size
    exact List.length_eq_three.1 size
  rw [isUs] at same
  exact ⟨first, second, third, isUs, by simpa using same⟩

theorem offset_front (front : List Char) : (Position.start.advance front).offset = front.length := by
  simp [Position.offset_advance, Position.start]

/-- The characters of a mention are a mention of the same node wherever they stand. -/
theorem cut_mention (strung : Strung .start source (pre ++ (ts ++ post))) (rule : Mention ts ref) :
    ∃ front text back, source = front ++ (text ++ back) ∧ ref.span.start.offset = front.length ∧
      ref.span.stop.offset = (front ++ text).length ∧
      Scans text fun us => ∃ read, Mention us read ∧ read.bare = ref.bare := by
  cases rule with
  | @bare id isId =>
    obtain ⟨front, word, rest, rfl, isWord, rfl, -⟩ := cut_identifier strung isId
    refine ⟨front, word, rest, rfl, offset_front front, ?_, ?_⟩
    · simp [Token.range, stop, offset_front]
    · refine scans_mono (scans_word_of_kind isWord isId) ?_
      rintro us ⟨t, rfl, isId, isText⟩
      exact ⟨_, .bare isId, by simp [NodeRef.bare, isText]⟩
  | @declared id opener label closer shape isId opens isLabel closes =>
    obtain ⟨front, word, _, rfl, isWord, rfl, behind⟩ := cut_identifier strung isId
    obtain ⟨gap, lexeme, rest, rfl, isGap, readable, free, isTokens⟩ := cut_label behind opens.1
    refine ⟨front, word ++ (gap ++ lexeme.chars), rest, by simp, offset_front front, ?_, ?_⟩
    · have ends := stop_of_last lexeme ((Position.start.advance (front ++ word)).advance gap)
      rw [isTokens] at ends
      have ends := ends closer rfl
      rw [← Position.advance_append, offset_front] at ends
      rw [Token.range]
      simpa [Int.add_assoc] using ends
    · have apart : Lexeme.Free (gap ++ lexeme.chars) := by
        cases gap with
        | nil => exact free
        | cons c gap =>
          have isFirst := (List.forall_mem_cons.1 isGap).1
          exact free_cons _ (by rcases isFirst with rfl | rfl | rfl <;> decide)
      have labelled := scans_gap isGap (scans_label_of_tokens readable isTokens)
      refine scans_mono (scans_append (scans_word_of_kind isWord isId) labelled apart) ?_
      rintro us ⟨_, _, rfl, ⟨t, rfl, isId, isText⟩, first, second, third, rfl, isFirst, isSecond, isThird⟩
      refine ⟨_, .declared isId ⟨isFirst.1.trans opens.1, isFirst.2.trans opens.2⟩
        ⟨isSecond.1.trans isLabel.1, isSecond.2 ▸ isLabel.2⟩
        ⟨isThird.1.trans closes.1, isThird.2.trans closes.2⟩, ?_⟩
      simp [NodeRef.bare, isText, isSecond.2]

/-- So they are read off on their own. -/
theorem isReadOff_of_mention (strung : Strung .start source (pre ++ (ts ++ post))) (rule : Mention ts ref) :
    ref.IsReadOff (ref.span.excerpt source) := by
  obtain ⟨front, text, back, split, start, stop, scans⟩ := cut_mention strung rule
  rw [Span.excerpt_eq split start stop]
  obtain ⟨us, final, isFinal, ⟨read, mention, same⟩, scanned⟩ := scan_of_scans scans
  obtain ⟨id, more, rfl, -⟩ := Feed.mention_head mention
  obtain ⟨feed, all⟩ := Feed.exists_all id (more ++ [final])
  obtain ⟨ended, allEnded⟩ := Feed.exists_all final []
  refine ⟨_, scanned, feed, all, read, Token.range (id :: more), ?_, ?_⟩
  · have ends : Feed.Ends [final] ended.all := allEnded ▸ .input isFinal
    rw [Feed.sentence_runs (.chain (.node mention)) feed ended [final] [] [] all ends,
      Feed.statements_step allEnded (by simp [isFinal]), isFinal]
    rfl
  · simp only [NodeRef.bare, NodeRef.mk.injEq] at same
    exact ⟨same.1, same.2.1, same.2.2.1⟩

end Flowchart
