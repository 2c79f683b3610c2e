import Flowchart.Token.Lexer

/-!
The shape of the tokens of a source. A label never stands alone: it comes with its brackets, its bars or
the two ends of its link, as the lexeme that holds it is read in one piece. The end of the input comes
once, at the end.
-/
namespace Flowchart.Token

/-- A token of a kind that has one text only. -/
def Spells (token : Token) (kind : Kind) (text : List Char) : Prop :=
  token.kind = kind ∧ token.text = String.ofList text

/-- The tokens of one lexeme. -/
inductive Piece : List Token → Prop where
  | word {word : Token} : word.kind = kindOfWord word.text → Piece [word]
  | line {line : Token} : line.kind = .newline → Piece [line]
  | arrow {arrow : Token} {style : EdgeStyle} {head : Bool} :
      arrow.Spells .arrow (style.arrow head) → Piece [arrow]
  | bracketed {opener label closer : Token} {shape : Shape} : opener.Spells .openBracket shape.opener →
      label.kind = .label → closer.Spells .closeBracket shape.closer → Piece [opener, label, closer]
  | barred {opener label closer : Token} : opener.kind = .pipe → label.kind = .label →
      closer.kind = .pipe → Piece [opener, label, closer]
  | inner {opener label arrow : Token} {style : EdgeStyle} {head : Bool} :
      opener.Spells .linkStart style.opener → label.kind = .label →
      arrow.Spells .arrow (style.closer head) → Piece [opener, label, arrow]

/-- The tokens of lexemes with the end of the input behind them. -/
inductive Stream : List Token → Prop where
  | done {final : Token} : final.kind = .endOfInput → Stream [final]
  | piece {ts us : List Token} : Piece ts → Stream us → Stream (ts ++ us)

theorem piece_tokens (lexeme : Lexeme) (at_ : Position) : Piece (lexeme.tokens at_) := by
  cases lexeme with
  | terminator c => exact .line rfl
  | word cs => exact .word rfl
  | arrow style head => exact .arrow ⟨rfl, rfl⟩
  | inlineLabel style inner head => exact .inner ⟨rfl, rfl⟩ rfl ⟨rfl, rfl⟩
  | pipeLabel inner => exact .barred rfl rfl rfl
  | bareLabel shape lead inner => exact .bracketed ⟨rfl, rfl⟩ rfl ⟨rfl, rfl⟩
  | quotedLabel shape lead inner trail => exact .bracketed ⟨rfl, rfl⟩ rfl ⟨rfl, rfl⟩

theorem stream_of_scanFrom {at_ : Position} {cs : List Char} {tokens : List Token}
    (h : scanFrom at_ cs = .ok tokens) : Stream tokens := by
  fun_induction scanFrom at_ cs generalizing tokens with
  | case1 => cases h; exact .done rfl
  | case2 => cases h
  | case3 at_ cs blanks start c rest _ lexeme behind _ =>
    rename_i ih
    cases more : scanFrom (start.advance lexeme.chars) behind with
    | error e => simp [more, bind, Except.bind] at h
    | ok us =>
      simp only [more, bind, Except.bind, pure, Except.pure, Except.ok.injEq] at h
      subst h
      exact .piece (piece_tokens lexeme start) (ih more)

theorem stream_of_scan {source : String} {tokens : List Token} (h : scan source = .ok tokens) :
    Stream tokens :=
  stream_of_scanFrom h

theorem kindOfWord_cases (text : String) :
    (kindOfWord text = .graph ∧ text = "graph") ∨ (kindOfWord text = .flowchart ∧ text = "flowchart") ∨
      kindOfWord text = .subgraph ∨ kindOfWord text = .close ∨ kindOfWord text = .identifier := by
  simp only [kindOfWord, keywords, List.lookup_cons, List.lookup_nil]
  split
  · rename_i same
    exact .inl ⟨rfl, by simpa using same⟩
  · split
    · rename_i same
      exact .inr (.inl ⟨rfl, by simpa using same⟩)
    · split
      · simp
      · split <;> simp

/-- What a first token tells about those behind it. -/
theorem stream_cases {t : Token} {ts : List Token} (stream : Stream (t :: ts)) :
    match t.kind with
    | .endOfInput => ts = []
    | .graph => t.text = "graph" ∧ Stream ts
    | .flowchart => t.text = "flowchart" ∧ Stream ts
    | .subgraph | .close | .identifier | .newline => Stream ts
    | .arrow => (∃ (style : EdgeStyle) (head : Bool), t.Spells .arrow (style.arrow head)) ∧ Stream ts
    | .linkStart => ∃ (label arrow : Token) (us : List Token) (style : EdgeStyle) (head : Bool),
      ts = label :: arrow :: us ∧ t.Spells .linkStart style.opener ∧ label.kind = .label ∧
        arrow.Spells .arrow (style.closer head) ∧ Stream us
    | .openBracket => ∃ (label closer : Token) (us : List Token) (shape : Shape),
      ts = label :: closer :: us ∧ t.Spells .openBracket shape.opener ∧ label.kind = .label ∧
        closer.Spells .closeBracket shape.closer ∧ Stream us
    | .pipe => ∃ (label closer : Token) (us : List Token),
      ts = label :: closer :: us ∧ label.kind = .label ∧ closer.kind = .pipe ∧ Stream us
    | .closeBracket | .label => False := by
  generalize eq : t :: ts = tokens at stream
  cases stream with
  | done isFinal =>
    cases eq
    simp [isFinal]
  | @piece front us piece stream =>
    cases piece with
    | word isWord =>
      cases eq
      rw [isWord]
      obtain ⟨kind, text⟩ | ⟨kind, text⟩ | kind | kind | kind := kindOfWord_cases t.text <;>
        simp_all
    | line isLine =>
      cases eq
      simp [isLine, stream]
    | @arrow _ style head isArrow =>
      cases eq
      rw [isArrow.1]
      exact ⟨⟨style, head, isArrow⟩, stream⟩
    | bracketed opens isLabel closes =>
      cases eq
      rw [opens.1]
      exact ⟨_, _, us, _, rfl, opens, isLabel, closes, stream⟩
    | barred opens isLabel closes =>
      cases eq
      rw [opens]
      exact ⟨_, _, us, rfl, isLabel, closes, stream⟩
    | inner opens isLabel isArrow =>
      cases eq
      rw [opens.1]
      exact ⟨_, _, us, _, _, rfl, opens, isLabel, isArrow, stream⟩

theorem stream_ne_nil {ts : List Token} (stream : Stream ts) : ∃ t rest, ts = t :: rest := by
  cases stream with
  | done => exact ⟨_, _, rfl⟩
  | piece piece => cases piece <;> exact ⟨_, _, rfl⟩

end Flowchart.Token
