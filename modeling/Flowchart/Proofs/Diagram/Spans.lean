import Flowchart.Proofs.Diagram.Excerpts

/-!
The ranges of a diagram. Every declaration, node, link and statement stands in the source from the first character of
its first token to the last character of its last one; the ranges of the parts of a statement lie in its own and follow
one another without overlap. The last token of a phrase is never a label, which is why the place behind it can be told
from its text.
-/
namespace Flowchart

namespace Token

open Position

/-- A token that repeats the source and stands on one line. -/
def IsInline (t : Token) : Prop :=
  t.kind ≠ .label ∧ t.kind ≠ .newline

theorem Strung.oneLine {at_ : Position} {cs : List Char} {ts : List Token} (strung : Strung at_ cs ts) :
    ∀ t ∈ ts, t.IsInline → '\n' ∉ t.text.toList := by
  induction strung with
  | done => simp
  | @lexeme at_ gap tail rest c lexeme more parts read _ ih =>
    refine List.forall_mem_append.2 ⟨?_, ih⟩
    cases lexeme with
    | word word =>
      have isWord := List.all_eq_true.1 (Lexeme.all_isWordChar_of_read read)
      simp only [Lexeme.tokens, List.mem_singleton, forall_eq, String.toList_ofList]
      intro _ mem
      exact absurd (isWord _ mem) (by decide)
    | terminator => simp [Lexeme.tokens, IsInline]
    | arrow style head => cases style <;> cases head <;> simp [Lexeme.tokens, EdgeStyle.arrow, EdgeStyle.closer]
    | inlineLabel style inner head =>
      cases style <;> cases head <;> simp [Lexeme.tokens, EdgeStyle.opener, EdgeStyle.closer, IsInline]
    | pipeLabel inner => simp [Lexeme.tokens, IsInline]
    | bareLabel shape => cases shape <;> simp [Lexeme.tokens, Shape.opener, Shape.closer, IsInline]
    | quotedLabel shape => cases shape <;> simp [Lexeme.tokens, Shape.opener, Shape.closer, IsInline]

/-- The place behind a token on one line is the place behind its text. -/
theorem stop_behind {t : Token} {front : List Char} (place : t.position = .behind front)
    (oneLine : '\n' ∉ t.text.toList) : t.stop = .behind (front ++ t.text.toList) := by
  rw [← advance_behind, advance_of_not_mem _ oneLine, stop, place]
  simp only [String.length_toList]

/-- The first token ends in front of the second, unless it is a label. -/
def Clear (t u : Token) : Prop :=
  t.kind = .label ∨ t.stop.offset ≤ u.position.offset

theorem clear_of_laid {source front : List Char} {tokens : List Token} (laid : Laid source front tokens) :
    tokens.Pairwise Clear := by
  induction laid with
  | done => exact List.pairwise_singleton _ _
  | @mark front gap _ token _ _ _ _ _ place laid ih =>
    refine List.pairwise_cons.2 ⟨fun other mem => .inr ?_, ih⟩
    have := (ordered_of_laid laid).1 other mem
    rw [offset_stop place]
    exact this
  | @label front gap inside _ opener label closer more _ _ enclosed laid ih =>
    obtain ⟨-, -, second⟩ := offsets_of_enclosed enclosed
    have opens : opener.stop.offset ≤ label.position.offset := by
      obtain ⟨lead, _, _, _, _, _, _, labelAt⟩ := enclosed.text
      rw [offset_stop enclosed.openerAt, labelAt]
      simp only [Position.behind, List.length_append]
      omega
    have behind (other : Token) (mem : other ∈ more) : closer.stop.offset ≤ other.position.offset := by
      rw [offset_stop enclosed.closerAt]
      exact (ordered_of_laid laid).1 other mem
    have size : closer.position.offset ≤ closer.stop.offset := by
      simp only [stop]
      omega
    simp only [List.pairwise_cons, List.forall_mem_cons]
    refine ⟨⟨.inr opens, .inr (by omega), fun other mem => .inr ?_⟩,
      ⟨.inl enclosed.kind, fun _ _ => .inl enclosed.kind⟩, fun other mem => .inr (behind other mem), ih⟩
    have := behind other mem
    omega

end Token

namespace Span

/-- The range lies in the other one. -/
def Inside (child parent : Span) : Prop :=
  parent.start.offset ≤ child.start.offset ∧ child.stop.offset ≤ parent.stop.offset

/-- The range ends before the other one starts. -/
def Before (first second : Span) : Prop :=
  first.stop.offset ≤ second.start.offset

/-- The range of the source from the first character of the first token to behind the last character of the last token.
Line and column of either end are those of its offset. -/
def IsExact (span : Span) (source : List Char) (ts : List Token) : Prop :=
  ∃ front text back, source = front ++ (text ++ back) ∧ span = ⟨.behind front, .behind (front ++ text)⟩ ∧
    (∃ first more, ts = first :: more ∧ first.position = .behind front ∧ first.text.toList <+: text) ∧
    ∃ fore last less, ts = fore ++ [last] ∧ last.position = .behind (front ++ less) ∧
      text = less ++ last.text.toList

/-- Two lists by turns, from the first of the one to what is left of either. -/
def alternate : List Span → List Span → List Span
  | [], others => others
  | span :: spans, others => span :: alternate others spans
termination_by spans others => spans.length + others.length

end Span

namespace Statement

/-- The ranges of the parts of a statement, in their order. -/
def children : Statement → List Span
  | node ref _ => [ref.span]
  | chain nodes links _ => Span.alternate (nodes.map NodeRef.span) (links.map Link.span)
  | subgraph _ _ body _ => body.map Statement.span

end Statement

namespace Grammar

open Token (Clear IsInline)
open Feed (Block)

variable {ts us : List Token} {spans more : List Span} {span : Span}

/-- Tokens that neither start nor end with a label or a line end. -/
def IsPhrase (ts : List Token) : Prop :=
  (∃ first more, ts = first :: more ∧ first.IsInline) ∧ ∃ fore last, ts = fore ++ [last] ∧ last.IsInline

theorem isPhrase_singleton {t : Token} (isInline : t.IsInline) : IsPhrase [t] :=
  ⟨⟨t, [], rfl, isInline⟩, [], t, rfl, isInline⟩

theorem isPhrase_ends {first last : Token} (fore : List Token) (isFirst : first.IsInline) (isLast : last.IsInline) :
    IsPhrase (first :: (fore ++ [last])) :=
  ⟨⟨first, _, rfl, isFirst⟩, first :: fore, last, rfl, isLast⟩

theorem isPhrase_append (front : IsPhrase ts) (back : IsPhrase us) : IsPhrase (ts ++ us) := by
  obtain ⟨⟨first, more, rfl, isFirst⟩, -⟩ := front
  obtain ⟨-, fore, last, rfl, isLast⟩ := back
  exact ⟨⟨first, more ++ (fore ++ [last]), rfl, isFirst⟩, first :: more ++ fore, last, by simp, isLast⟩

theorem isPhrase_of_mention {ref : NodeRef} (rule : Mention ts ref) : IsPhrase ts := by
  cases rule with
  | bare isId => exact isPhrase_singleton (by simp [IsInline, isId])
  | @declared id opener label closer shape isId _ _ closes =>
    exact isPhrase_ends [opener, label] (by simp [IsInline, isId]) (by simp [IsInline, closes.1])

theorem isPhrase_of_joint {link : Link} (rule : Joint ts link) : IsPhrase ts := by
  cases rule with
  | plain isArrow => exact isPhrase_singleton (by simp [IsInline, isArrow.1])
  | @barred arrow bar label close _ _ isArrow _ _ isClose =>
    exact isPhrase_ends [bar, label] (by simp [IsInline, isArrow.1]) (by simp [IsInline, isClose])
  | @inner opener label arrow _ _ opens _ isArrow =>
    exact isPhrase_ends [label] (by simp [IsInline, opens.1]) (by simp [IsInline, isArrow.1])

theorem isPhrase_of_declaration {direction : Direction} (rule : Declaration ts direction) : IsPhrase ts := by
  have isInline {word : Token} (isWord : word.Declares) : word.IsInline := by
    rcases isWord with isWord | isWord <;> simp [IsInline, isWord.1]
  cases rule with
  | plain isWord => exact isPhrase_singleton (isInline isWord)
  | directed isWord isName => exact isPhrase_ends [] (isInline isWord) (by simp [IsInline, isName])

theorem isPhrase_of_joints {steps : List (Link × NodeRef)} (rule : Joints ts steps) (some : steps ≠ []) :
    IsPhrase ts := by
  induction rule with
  | nil => exact absurd rfl some
  | cons joint mention joints ih =>
    have step := isPhrase_append (isPhrase_of_joint joint) (isPhrase_of_mention mention)
    cases joints with
    | nil => simpa using step
    | cons => simpa using isPhrase_append step (ih (List.cons_ne_nil _ _))

theorem isPhrase_of_sentence {statement : Statement} (rule : Sentence ts statement) : IsPhrase ts := by
  cases rule with
  | chain rule =>
    cases rule with
    | node mention => exact isPhrase_of_mention mention
    | edges mention joints some => exact isPhrase_append (isPhrase_of_mention mention) (isPhrase_of_joints joints some)
  | @block hs ts line close head body header isLine inner closes =>
    obtain ⟨more, rfl, opens⟩ := Feed.header_head header
    have ends := isPhrase_ends (more ++ line :: ts) (show head.opener.IsInline by simp [IsInline, opens])
      (show close.IsInline by simp [IsInline, closes])
    simpa using ends

theorem span_of_sentence {statement : Statement} (rule : Sentence ts statement) : statement.span = Token.range ts := by
  cases rule with
  | chain rule => cases rule <;> rfl
  | block => rfl

/-- The ranges are those of phrases that follow one another among the tokens. -/
inductive InOrder : List Token → List Span → Prop where
  | nil {ts : List Token} : InOrder ts []
  | cons {front us ts : List Token} {spans : List Span} : IsPhrase us → InOrder ts spans →
      InOrder (front ++ (us ++ ts)) (Token.range us :: spans)

theorem InOrder.behind (inOrder : InOrder ts spans) (front : List Token) : InOrder (front ++ ts) spans := by
  cases inOrder with
  | nil => exact .nil
  | cons phrase inOrder =>
    rw [← List.append_assoc]
    exact .cons phrase inOrder

theorem InOrder.append (first : InOrder ts spans) (second : InOrder us more) : InOrder (ts ++ us) (spans ++ more) := by
  induction first with
  | nil => exact second.behind _
  | cons phrase _ ih =>
    rw [List.append_assoc, List.append_assoc]
    exact .cons phrase ih

theorem InOrder.ahead (inOrder : InOrder ts spans) (back : List Token) : InOrder (ts ++ back) spans := by
  simpa using inOrder.append (InOrder.nil : InOrder back [])

theorem inOrder_phrase (phrase : IsPhrase ts) : InOrder ts [Token.range ts] := by
  have alone : InOrder ([] ++ (ts ++ [])) [Token.range ts] := .cons phrase .nil
  rwa [List.nil_append, List.append_nil] at alone

theorem exists_of_inOrder (inOrder : InOrder ts spans) (mem : span ∈ spans) :
    ∃ us, us <:+: ts ∧ IsPhrase us ∧ span = Token.range us := by
  induction inOrder with
  | nil => cases mem
  | @cons front us ts spans phrase _ ih =>
    rcases List.mem_cons.1 mem with rfl | mem
    · exact ⟨us, ⟨front, ts, by simp⟩, phrase, rfl⟩
    · obtain ⟨vs, within, phrase, rfl⟩ := ih mem
      refine ⟨vs, within.trans ?_, phrase, rfl⟩
      rw [← List.append_assoc]
      exact (List.suffix_append _ ts).isInfix

/-- Ranges of phrases that follow one another do not overlap. -/
theorem before_of_inOrder (clear : ts.Pairwise Clear) (inOrder : InOrder ts spans) : spans.Pairwise Span.Before := by
  induction inOrder with
  | nil => exact .nil
  | @cons front us ts spans phrase inOrder ih =>
    obtain ⟨-, behindFront, -⟩ := List.pairwise_append.1 clear
    obtain ⟨-, behind, apart⟩ := List.pairwise_append.1 behindFront
    refine List.pairwise_cons.2 ⟨fun span mem => ?_, ih behind⟩
    obtain ⟨vs, within, ⟨⟨first, more, rfl, -⟩, -⟩, rfl⟩ := exists_of_inOrder inOrder mem
    obtain ⟨-, fore, last, rfl, isLast⟩ := phrase
    have ends := apart last (by simp) first (within.subset List.mem_cons_self)
    rw [Span.Before, Token.range, Token.range, Feed.getLastD_append]
    exact ends.resolve_left isLast.1

theorem range_eq {first last : Token} {more fore : List Token} (isFirst : ts = first :: more)
    (isLast : ts = fore ++ [last]) : Token.range ts = ⟨first.position, last.stop⟩ := by
  have ends : ts.getLastD default = last := by rw [isLast, Feed.getLastD_append]; rfl
  rw [Token.range, ends, isFirst]
  rfl

/-- The range of a phrase lies in that of a phrase that it is part of. -/
theorem inside_of_infix (ordered : ts.Pairwise fun first second => first.position.offset ≤ second.position.offset)
    (clear : ts.Pairwise Clear) (whole : IsPhrase ts) (part : IsPhrase us) (within : us <:+: ts) :
    (Token.range us).Inside (Token.range ts) := by
  obtain ⟨⟨first, more, isFirst, -⟩, fore, last, isLast, -⟩ := whole
  obtain ⟨⟨start, others, isStart, -⟩, before, stop, isStop, isInline⟩ := part
  have startMem : start ∈ ts := within.subset (isStart ▸ List.mem_cons_self)
  have stopMem : stop ∈ ts := within.subset (isStop ▸ List.mem_append_right _ List.mem_cons_self)
  rw [range_eq isFirst isLast, range_eq isStart isStop]
  constructor
  · rw [isFirst] at ordered startMem
    rcases List.mem_cons.1 startMem with rfl | later
    · exact Int.le_refl _
    · exact List.rel_of_pairwise_cons ordered later
  · rw [isLast] at clear stopMem
    rcases List.mem_append.1 stopMem with earlier | isLast
    · have apart := (List.pairwise_append.1 clear).2.2 stop earlier last List.mem_cons_self
      have ends := apart.resolve_left isInline.1
      simp only [Token.stop] at ends ⊢
      omega
    · cases List.mem_singleton.1 isLast
      exact Int.le_refl _

/-- A phrase among the tokens of a source has an exact range. -/
theorem isExact_of_infix {source : List Char} {tokens : List Token} (laid : Token.Laid source [] tokens)
    (oneLine : ∀ t ∈ tokens, t.IsInline → '\n' ∉ t.text.toList) (phrase : IsPhrase ts)
    (within : ts <:+: tokens) : (Token.range ts).IsExact source ts := by
  obtain ⟨⟨first, more, isFirst, firstInline⟩, fore, last, isLast, lastInline⟩ := phrase
  have firstMem : first ∈ ts := isFirst ▸ List.mem_cons_self
  have lastMem : last ∈ ts := isLast ▸ List.mem_append_right _ List.mem_cons_self
  obtain ⟨front, back, split, firstAt⟩ := Token.verbatim_of_laid laid first (within.subset firstMem) firstInline.1
  obtain ⟨upTo, behind, splitLast, lastAt⟩ := Token.verbatim_of_laid laid last (within.subset lastMem) lastInline.1
  have stop := Token.stop_behind lastAt (oneLine last (within.subset lastMem) lastInline)
  -- The first token is the last one or lies in front of it.
  obtain ⟨less, rfl, opens⟩ :
      ∃ less, upTo = front ++ less ∧ first.text.toList <+: less ++ last.text.toList := by
    have clear := (Token.clear_of_laid laid).sublist within.sublist
    rw [isFirst] at clear lastMem
    rcases List.mem_cons.1 lastMem with rfl | later
    · have samePlace : front.length = upTo.length :=
        Int.ofNat.inj (congrArg Position.offset (firstAt.symm.trans lastAt))
      rw [split, List.append_assoc, List.append_assoc] at splitLast
      exact ⟨[], by simpa using (List.append_inj splitLast samePlace).1.symm, by simp⟩
    · have apart := (List.rel_of_pairwise_cons clear later).resolve_left firstInline.1
      rw [Token.offset_stop firstAt, lastAt] at apart
      have reaches : front ++ first.text.toList <+: upTo := by
        refine List.prefix_of_prefix_length_le ⟨back, split.symm⟩ ?_ (Int.ofNat_le.1 apart)
        rw [splitLast, List.append_assoc]
        exact List.prefix_append _ _
      obtain ⟨more, rfl⟩ := reaches
      exact ⟨first.text.toList ++ more, by simp, by simp⟩
  refine ⟨front, less ++ last.text.toList, behind, by simpa using splitLast, ?_,
    ⟨first, more, isFirst, firstAt, opens⟩, fore, last, less, isLast, lastAt, rfl⟩
  rw [range_eq isFirst isLast, firstAt, stop, List.append_assoc]

/-! ### The parts of a statement -/

theorem span_of_mention {ref : NodeRef} (rule : Mention ts ref) : ref.span = Token.range ts := by
  cases rule <;> rfl

theorem span_of_joint {link : Link} (rule : Joint ts link) : link.span = Token.range ts := by
  cases rule <;> rfl

theorem inOrder_of_joints {steps : List (Link × NodeRef)} (rule : Joints ts steps) :
    InOrder ts (Span.alternate ((steps.map Prod.fst).map Link.span) ((steps.map Prod.snd).map NodeRef.span)) := by
  induction rule with
  | nil => simpa [Span.alternate] using InOrder.nil
  | @cons ts us vs link ref steps joint mention _ ih =>
    have first := inOrder_phrase (isPhrase_of_joint joint)
    have second := inOrder_phrase (isPhrase_of_mention mention)
    have whole := first.append (second.append ih)
    simpa [Span.alternate, span_of_joint joint, span_of_mention mention] using whole

theorem inOrder_of_lines {body : List Statement} (rule : Lines ts body) : InOrder ts (body.map Statement.span) := by
  refine lines_induction (Q := fun ts body => InOrder ts (body.map Statement.span)) .nil ?_ ?_ rule
  · intro ts line body inOrder _
    exact inOrder.ahead [line]
  · intro ts us line body statement inOrder sentence _
    have last := inOrder_phrase (isPhrase_of_sentence sentence)
    rw [List.map_append, List.map_singleton, span_of_sentence sentence]
    exact inOrder.append (last.ahead [line])

theorem inOrder_of_sentence {statement : Statement} (rule : Sentence ts statement) : InOrder ts statement.children := by
  cases rule with
  | chain rule =>
    cases rule with
    | @node ts ref mention =>
      have alone := inOrder_phrase (isPhrase_of_mention mention)
      rwa [← span_of_mention mention] at alone
    | @edges ts us ref more mention joints some =>
      have first := inOrder_phrase (isPhrase_of_mention mention)
      have whole := first.append (inOrder_of_joints joints)
      simpa [Statement.children, Span.alternate, span_of_mention mention] using whole
  | @block hs ts line close head body header isLine inner closes =>
    have lines := (inOrder_of_lines inner).ahead [close]
    simpa [Statement.children] using lines.behind (hs ++ [line])

/-! ### Phrases within phrases -/

/-- Some of the tokens that follow one another spell the tree. -/
def Occurs {α : Type} (rule : List Token → α → Prop) (tokens : List Token) (tree : α) : Prop :=
  ∃ ts, ts <:+: tokens ∧ rule ts tree

theorem Occurs.mono {α : Type} {rule : List Token → α → Prop} {tree : α} (occurs : Occurs rule ts tree)
    (within : ts <:+: us) : Occurs rule us tree := by
  obtain ⟨vs, part, spells⟩ := occurs
  exact ⟨vs, part.trans within, spells⟩

theorem phrases_of_joints {steps : List (Link × NodeRef)} (rule : Joints ts steps) :
    (∀ ref ∈ steps.map Prod.snd, Occurs Mention ts ref) ∧ ∀ link ∈ steps.map Prod.fst, Occurs Joint ts link := by
  induction rule with
  | nil => exact ⟨List.forall_mem_nil _, List.forall_mem_nil _⟩
  | @cons ts us vs link ref steps joint mention _ ih =>
    have behind : vs <:+: ts ++ (us ++ vs) := ((List.suffix_append us vs).trans (List.suffix_append ts _)).isInfix
    constructor
    · refine List.forall_mem_cons.2 ⟨⟨us, ⟨ts, vs, by simp⟩, mention⟩, fun ref mem => ?_⟩
      exact (ih.1 ref mem).mono behind
    · refine List.forall_mem_cons.2 ⟨⟨ts, (List.prefix_append ts _).isInfix, joint⟩, fun link mem => ?_⟩
      exact (ih.2 link mem).mono behind

theorem phrases_of_sentence {statement : Statement} (rule : Sentence ts statement) :
    (∀ ref ∈ statement.refs, Occurs Mention ts ref) ∧ ∀ link ∈ statement.links, Occurs Joint ts link := by
  cases rule with
  | chain rule =>
    cases rule with
    | node mention => exact ⟨List.forall_mem_singleton.2 ⟨ts, List.infix_rfl, mention⟩, List.forall_mem_nil _⟩
    | @edges ts us ref more mention joints some =>
      obtain ⟨refs, links⟩ := phrases_of_joints joints
      have behind : us <:+: ts ++ us := (List.suffix_append ts us).isInfix
      refine ⟨List.forall_mem_cons.2 ⟨⟨ts, (List.prefix_append ts us).isInfix, mention⟩, ?_⟩, ?_⟩
      · exact fun ref mem => (refs ref mem).mono behind
      · exact fun link mem => (links link mem).mono behind
  | block => exact ⟨List.forall_mem_nil _, List.forall_mem_nil _⟩

/-- Every entry of an outline is a statement among the tokens. -/
def Outlined (tokens : List Token) (outline : List (Option String × Statement)) : Prop :=
  ∀ entry ∈ outline, Occurs Sentence tokens entry.2

theorem Outlined.mono {outline : List (Option String × Statement)} (outlined : Outlined ts outline)
    (within : ts <:+: us) : Outlined us outline :=
  fun entry mem => (outlined entry mem).mono within

theorem phrases_of_outlined {tokens : List Token} {diagram : Diagram} (outlined : Outlined tokens diagram.outline) :
    (∀ ref ∈ diagram.refs, Occurs Mention tokens ref) ∧ ∀ link ∈ diagram.links, Occurs Joint tokens link := by
  constructor
  · intro ref mem
    obtain ⟨entry, isEntry, mem⟩ := List.mem_flatMap.1 mem
    obtain ⟨us, within, sentence⟩ := outlined entry isEntry
    exact ((phrases_of_sentence sentence).1 ref mem).mono within
  · intro link mem
    obtain ⟨entry, isEntry, mem⟩ := List.mem_flatMap.1 mem
    obtain ⟨us, within, sentence⟩ := outlined entry isEntry
    exact ((phrases_of_sentence sentence).2 link mem).mono within

theorem outlined_of_rule :
    (∀ ts statement, Sentence ts statement →
      Sentence ts statement ∧ ∀ around, Outlined ts (statement.outline around)) ∧
    ∀ ts body, Lines ts body → Lines ts body ∧ ∀ around, Outlined ts (Statement.outlineOfList around body) := by
  refine sentence_lines_induction ?_ ?_ ?_ ?_ ?_
  · intro ts statement rule
    have sentence := Sentence.chain rule
    refine ⟨sentence, fun around => ?_⟩
    cases rule <;> exact List.forall_mem_singleton.2 ⟨_, List.infix_rfl, sentence⟩
  · intro hs ts line close head body header isLine ⟨lines, outlined⟩ closes
    have sentence := Sentence.block header isLine lines closes
    refine ⟨sentence, fun around => ?_⟩
    rw [Statement.outline]
    refine List.forall_mem_cons.2 ⟨⟨_, List.infix_rfl, sentence⟩, (outlined _).mono ?_⟩
    exact ⟨hs ++ [line], [close], by simp⟩
  · exact ⟨.nil, fun _ => List.forall_mem_nil _⟩
  · intro ts line body ⟨lines, outlined⟩ isLine
    exact ⟨.blank lines isLine, fun around => (outlined around).mono (List.prefix_append ts _).isInfix⟩
  · intro ts us line body statement ⟨lines, outlined⟩ ⟨sentence, inner⟩ isLine
    refine ⟨.line lines sentence isLine, fun around => ?_⟩
    rw [Statement.outlineOfList_append]
    refine List.forall_mem_append.2 ⟨(outlined around).mono (List.prefix_append ts _).isInfix, ?_⟩
    rw [Statement.outlineOfList, Statement.outlineOfList, List.append_nil]
    exact (inner around).mono ⟨ts, [line], by simp⟩

/-- What stands in order among tokens does so when tokens follow. -/
theorem InOrder.mono (inOrder : InOrder ts spans) (isPrefix : ts <+: us) : InOrder us spans := by
  obtain ⟨back, rfl⟩ := isPrefix
  exact inOrder.ahead back

/-- The line end at the last place may be the end of the input, which is not among the tokens. -/
theorem parts_of_opened {direction : Direction} {span : Span} {blocks : List Block} {done : List Statement}
    (opened : Opened direction span ts blocks done) (outside : blocks = []) :
    Outlined ts.dropLast (Statement.outlineOfList none done.reverse) ∧
      InOrder ts.dropLast (span :: done.reverse.map Statement.span) ∧
      ∃ us, us <:+: ts.dropLast ∧ Declaration us direction ∧ span = Token.range us := by
  induction opened with
  | @declared blanks ts line areBlank rule isSpan isLine =>
    rw [← List.append_assoc, List.dropLast_concat]
    refine ⟨List.forall_mem_nil _, ?_, ts, (List.suffix_append blanks ts).isInfix, rule, isSpan⟩
    rw [isSpan]
    exact (inOrder_phrase (isPhrase_of_declaration rule)).behind blanks
  | @blank ts line blocks done _ _ ih =>
    obtain ⟨outlined, inOrder, us, within, rule, isSpan⟩ := ih outside
    rw [List.dropLast_concat]
    have isPrefix := List.dropLast_prefix ts
    exact ⟨outlined.mono isPrefix.isInfix, inOrder.mono isPrefix, us, within.trans isPrefix.isInfix, rule, isSpan⟩
  | @sentence ts us line blocks done statement _ sentence _ ih =>
    obtain ⟨outlined, inOrder, vs, within, rule, isSpan⟩ := ih outside
    rw [← List.append_assoc, List.dropLast_concat, List.reverse_cons]
    have isPrefix := (List.dropLast_prefix ts).trans (List.prefix_append ts us)
    refine ⟨?_, ?_, vs, within.trans isPrefix.isInfix, rule, isSpan⟩
    · rw [Statement.outlineOfList_append, Statement.outlineOfList, Statement.outlineOfList, List.append_nil]
      refine List.forall_mem_append.2 ⟨outlined.mono isPrefix.isInfix, ?_⟩
      exact ((outlined_of_rule.1 us statement sentence).2 none).mono (List.suffix_append ts us).isInfix
    · have last := inOrder_phrase (isPhrase_of_sentence sentence)
      rw [List.map_append, List.map_singleton, span_of_sentence sentence, ← List.cons_append]
      exact (inOrder.mono (List.dropLast_prefix ts)).append last
  | header => cases outside

theorem parts_of_document {tokens : List Token} {diagram : Diagram} (rule : Document tokens diagram) :
    Outlined tokens diagram.outline ∧ InOrder tokens (diagram.span :: diagram.statements.map Statement.span) ∧
      ∃ ts, ts <:+: tokens ∧ Declaration ts diagram.direction ∧ diagram.span = Token.range ts := by
  obtain ⟨opened, -, -⟩ := rule
  rename_i ts line final direction span body
  obtain ⟨outlined, inOrder, us, within, rule, isSpan⟩ := parts_of_opened opened rfl
  rw [List.dropLast_concat] at outlined inOrder within
  rw [List.reverse_reverse] at outlined inOrder
  have isPrefix := List.prefix_append ts [final]
  exact ⟨outlined.mono isPrefix.isInfix, inOrder.mono isPrefix, us, within.trans isPrefix.isInfix, rule, isSpan⟩

end Grammar

namespace Diagram

open Grammar

/-- The ranges of a diagram among the tokens of its source. Each one is exact for the tokens that the declaration, the
node, the link or the statement was read from; the parts of a statement lie in it and follow one another; and what a
node was read from can be read on its own. -/
structure Ranged (source : List Char) (tokens : List Token) (diagram : Diagram) : Prop where
  declaration : ∃ ts, ts <:+: tokens ∧ Declaration ts diagram.direction ∧ diagram.span.IsExact source ts
  refs : ∀ ref ∈ diagram.refs, ∃ ts, ts <:+: tokens ∧ Mention ts ref ∧ ref.span.IsExact source ts
  links : ∀ link ∈ diagram.links, ∃ ts, ts <:+: tokens ∧ Joint ts link ∧ link.span.IsExact source ts
  statements : ∀ entry ∈ diagram.outline,
    ∃ ts, ts <:+: tokens ∧ Sentence ts entry.2 ∧ entry.2.span.IsExact source ts
  inside : ∀ entry ∈ diagram.outline, ∀ child ∈ entry.2.children, child.Inside entry.2.span
  siblings : ∀ entry ∈ diagram.outline, entry.2.children.Pairwise Span.Before
  top : (diagram.span :: diagram.statements.map Statement.span).Pairwise Span.Before
  alone : ∀ ref ∈ diagram.refs, ref.IsReadOff (ref.span.excerpt source)

/-- The ranges of whatever is read from a source are exact, nested and in the order of the source. -/
theorem ranged_of_ofSource {source : String} {diagram : Diagram} (read : ofSource source = .ok diagram) :
    ∃ tokens, Token.scan source = .ok tokens ∧ diagram.Ranged source.toList tokens := by
  obtain ⟨tokens, scanned, parsed⟩ := tokens_of_ofSource read
  have document := document_of_ofTokens (Token.stream_of_scan scanned) parsed
  have isStart : Position.start = .behind [] := rfl
  have laid : Token.Laid source.toList [] tokens := Token.laid_of_scanFrom isStart scanned
  have strung := Token.strung_of_scanFrom scanned
  obtain ⟨outlined, inOrder, ts, within, declaration, isSpan⟩ := parts_of_document document
  obtain ⟨mentions, joints⟩ := phrases_of_outlined outlined
  have ordered := (Token.ordered_of_laid laid).2
  have clear := Token.clear_of_laid laid
  have isExact {ts : List Token} (phrase : IsPhrase ts) (within : ts <:+: tokens) :=
    isExact_of_infix laid strung.oneLine phrase within
  refine ⟨tokens, scanned, ?_, ?_, ?_, ?_, ?_, ?_, ?_, ?_⟩
  · exact ⟨ts, within, declaration, isSpan ▸ isExact (isPhrase_of_declaration declaration) within⟩
  · intro ref mem
    obtain ⟨us, within, mention⟩ := mentions ref mem
    exact ⟨us, within, mention, span_of_mention mention ▸ isExact (isPhrase_of_mention mention) within⟩
  · intro link mem
    obtain ⟨us, within, joint⟩ := joints link mem
    exact ⟨us, within, joint, span_of_joint joint ▸ isExact (isPhrase_of_joint joint) within⟩
  · intro entry mem
    obtain ⟨us, within, sentence⟩ := outlined entry mem
    exact ⟨us, within, sentence, span_of_sentence sentence ▸ isExact (isPhrase_of_sentence sentence) within⟩
  · intro entry mem child isChild
    obtain ⟨us, within, sentence⟩ := outlined entry mem
    obtain ⟨vs, part, phrase, rfl⟩ := exists_of_inOrder (inOrder_of_sentence sentence) isChild
    rw [span_of_sentence sentence]
    exact inside_of_infix (ordered.sublist within.sublist) (clear.sublist within.sublist)
      (isPhrase_of_sentence sentence) phrase part
  · intro entry mem
    obtain ⟨us, within, sentence⟩ := outlined entry mem
    exact before_of_inOrder (clear.sublist within.sublist) (inOrder_of_sentence sentence)
  · exact before_of_inOrder clear inOrder
  · intro ref mem
    obtain ⟨us, ⟨pre, post, rfl⟩, mention⟩ := mentions ref mem
    rw [List.append_assoc] at strung
    exact isReadOff_of_mention strung mention

/-- A label over two lines in a block in a block, and a link behind it. -/
def folded : String :=
  "graph LR\nsubgraph s [\"a; b\"]\nA %% c\nsubgraph t\nB ((x\n y)) -- l -->C[\" ]\" ]; D\nend\nend"

theorem ranged_of_ofSource_folded :
    ∃ diagram, ofSource folded = .ok diagram ∧ ∃ tokens, Token.scan folded = .ok tokens ∧
      diagram.Ranged folded.toList tokens := by
  have accepted : (ofSource folded).toOption.isSome = true := by decide +kernel
  cases read : ofSource folded with
  | error error => simp [read, Except.toOption] at accepted
  | ok diagram => exact ⟨diagram, rfl, ranged_of_ofSource read⟩

end Diagram
end Flowchart
