import Flowchart.Proofs.Diagram.ErrorPosition

/-!
Reading ends, and ends well. The tokens of a source come in whole lexemes with the end of the input behind them, and
wherever a loop of the reader takes another turn, it has read some tokens and left whole lexemes. So every mark is found
in its table, and a source is a diagram, or is refused at one of its places.
-/
namespace Flowchart

namespace Token

variable {tokens : List Token}

/-- Whole lexemes, and the only end of the input behind them. -/
def IsWhole (tokens : List Token) : Prop :=
  ∃ (pieces : List (List Token)) (final : Token), (∀ piece ∈ pieces, Piece piece) ∧
    tokens = pieces.flatten ++ [final] ∧ final.kind = .endOfInput ∧ ∀ t ∈ pieces.flatten, t.kind ≠ .endOfInput

theorem kind_ne_of_piece (piece : Piece tokens) : ∀ t ∈ tokens, t.kind ≠ .endOfInput := by
  cases piece with
  | @word t isWord =>
    obtain ⟨kind, -⟩ | ⟨kind, -⟩ | kind | kind | kind := kindOfWord_cases t.text <;> simp [isWord, kind]
  | line isLine => simp [isLine]
  | arrow isArrow => simp [isArrow.1]
  | bracketed opens isLabel closes => simp [opens.1, isLabel, closes.1]
  | barred opens isLabel closes => simp [opens, isLabel, closes]
  | inner opens isLabel isArrow => simp [opens.1, isLabel, isArrow.1]

theorem isWhole_of_stream (stream : Stream tokens) : IsWhole tokens := by
  induction stream with
  | @done final isFinal => exact ⟨[], final, by simp, rfl, isFinal, by simp⟩
  | @piece ts us piece stream ih =>
    obtain ⟨pieces, final, arePieces, rfl, isFinal, others⟩ := ih
    refine ⟨ts :: pieces, final, List.forall_mem_cons.2 ⟨piece, arePieces⟩, by simp, isFinal, ?_⟩
    rw [List.flatten_cons, List.forall_mem_append]
    exact ⟨kind_ne_of_piece piece, others⟩

theorem IsWhole.stream (whole : IsWhole tokens) : Stream tokens := by
  obtain ⟨pieces, final, arePieces, rfl, isFinal, -⟩ := whole
  induction pieces with
  | nil => exact .done isFinal
  | cons piece pieces ih =>
    obtain ⟨isPiece, arePieces⟩ := List.forall_mem_cons.1 arePieces
    rw [List.flatten_cons, List.append_assoc]
    exact .piece isPiece (ih arePieces)

end Token

namespace Feed

open Grammar

variable {feed next last : Feed} {blocks : List Block} {done : List Statement}

/-- Whole lexemes are left of those that were there. -/
structure Leaves (feed next : Feed) : Prop where
  stream : Token.Stream next.all
  suffix : next.all <:+ feed.all

/-- Something is read, and whole lexemes are left. -/
structure Advances (feed next : Feed) : Prop extends Leaves feed next where
  shorter : next.all.length < feed.all.length

theorem Leaves.trans (first : Leaves feed next) (second : Leaves next last) : Leaves feed last :=
  ⟨second.stream, second.suffix.trans first.suffix⟩

theorem Leaves.advances (first : Leaves feed next) (second : Advances next last) : Advances feed last :=
  ⟨first.trans second.toLeaves, Nat.lt_of_lt_of_le second.shorter first.suffix.length_le⟩

theorem Advances.leaves (first : Advances feed next) (second : Leaves next last) : Advances feed last :=
  ⟨first.toLeaves.trans second, Nat.lt_of_le_of_lt second.suffix.length_le first.shorter⟩

theorem exists_first (feed : Feed) : ∃ t ts, feed.all = t :: ts :=
  List.exists_cons_of_ne_nil (by simp [all])

/-- The end of the input is no blank line, so something stands behind one. -/
theorem advances_blank (stream : Token.Stream feed.all) (isLine : feed.kind = .newline) :
    Advances feed { feed with rest := feed.rest.tail } := by
  obtain ⟨rest, final, latest⟩ := feed
  cases rest with
  | nil =>
    have isLine : final.kind = .newline := isLine
    have behind := Token.stream_cases (show Token.Stream [final] from stream)
    simp only [isLine] at behind
    obtain ⟨t, ts, none⟩ := Token.stream_ne_nil behind
    cases none
  | cons t rest =>
    have isLine : t.kind = .newline := isLine
    have behind := Token.stream_cases (show Token.Stream (t :: (rest ++ [final])) from stream)
    simp only [isLine] at behind
    exact ⟨⟨behind, List.suffix_cons _ _⟩, Nat.lt_succ_self _⟩

theorem leaves_skipNewlines (stream : Token.Stream feed.all) :
    Leaves feed feed.skipNewlines ∧ feed.skipNewlines.kind ≠ .newline := by
  obtain ⟨rest, final, latest⟩ := feed
  induction rest with
  | nil =>
    refine ⟨⟨stream, List.suffix_rfl⟩, ?_⟩
    intro isLine
    exact absurd (advances_blank stream isLine).shorter (Nat.lt_irrefl _)
  | cons t rest ih =>
    by_cases isLine : t.kind = .newline
    · have skipped : skipNewlines ⟨t :: rest, final, latest⟩ = skipNewlines ⟨rest, final, latest⟩ := by
        simp [skipNewlines, isLine]
      have first := (advances_blank stream isLine).toLeaves
      obtain ⟨leaves, other⟩ := ih first.stream
      rw [skipped]
      exact ⟨first.trans leaves, other⟩
    · rw [skipNewlines_of_all rfl isLine]
      exact ⟨⟨stream, List.suffix_rfl⟩, isLine⟩

/-- A reader that always reads a phrase or refuses a token advances over the phrase. -/
theorem advances_of_verdict {α β : Type} {rule : List Token → α → Prop} {follow : List Token → Token → Prop}
    {read : Feed → Except ParseError (β × Feed)} {tree : β} (verdict : Verdict rule follow read feed.all)
    (some : ∀ ts tree, rule ts tree → ts ≠ [])
    (reads : ∀ ts t post tree, rule ts tree → follow ts t → Token.Stream (t :: post) →
      feed.all = ts ++ t :: post →
      ∃ result behind, read feed = .ok (result, behind) ∧ Token.Stream behind.all ∧ behind.all <:+ t :: post)
    (h : read feed = .ok (tree, next)) : Advances feed next := by
  cases verdict with
  | @accepted ts post t found eq phrase isFollow stream =>
    obtain ⟨result, behind, accepted, whole, suffix⟩ := reads ts t post found phrase isFollow stream eq
    rw [h] at accepted
    cases accepted
    have positive := List.length_pos_iff.2 (some ts found phrase)
    have bound := suffix.length_le
    refine ⟨⟨whole, suffix.trans ?_⟩, ?_⟩
    · rw [eq]
      exact List.suffix_append _ _
    · rw [eq, List.length_append]
      omega
  | refused pre more eq phrase refuses =>
    obtain ⟨fault, refused⟩ := refuses feed _ eq
    rw [h] at refused
    cases refused

theorem advances_nodeRef {ref : NodeRef} (stream : Token.Stream feed.all) (h : feed.nodeRef = .ok (ref, next)) :
    Advances feed next := by
  apply advances_of_verdict (nodeRef_verdict stream) ?_ ?_ h
  · intro ts ref mention
    obtain ⟨id, more, rfl, -⟩ := mention_head mention
    exact List.cons_ne_nil _ _
  · intro ts t post ref mention detached behind eq
    obtain ⟨after, read, isRest, -⟩ := nodeRef_of_mention mention eq detached
    exact ⟨ref, after, read, isRest ▸ behind, isRest ▸ List.suffix_rfl⟩

theorem advances_link {link : Link} (atLink : feed.atLink = true) (stream : Token.Stream feed.all)
    (h : feed.link = .ok (link, next)) : Advances feed next := by
  obtain ⟨first, rest, split⟩ := exists_first feed
  have opens : first.kind = .arrow ∨ first.kind = .linkStart := by
    simpa [Feed.atLink, kind_of_all split] using atLink
  apply advances_of_verdict (split ▸ link_verdict opens (split ▸ stream)) ?_ ?_ h
  · intro ts link joint
    obtain ⟨opener, more, rfl, -⟩ := joint_head joint
    exact List.cons_ne_nil _ _
  · intro ts t post link joint unbarred behind eq
    obtain ⟨after, read, isRest, -⟩ := link_of_joint joint eq unbarred
    exact ⟨link, after, read, isRest ▸ behind, isRest ▸ List.suffix_rfl⟩

theorem ends_of_atEnd {ts post : List Token} {t : Token} (isEnd : AtEnd ts t) (stream : Token.Stream (t :: post)) :
    ∃ rest, Ends (t :: post) rest ∧ Token.Stream rest ∧ rest <:+ t :: post := by
  rcases isEnd with isLine | isFinal
  · have behind := Token.stream_cases stream
    simp only [isLine] at behind
    obtain ⟨u, us, rfl⟩ := Token.stream_ne_nil behind
    exact ⟨_, .line isLine, behind, List.suffix_cons _ _⟩
  · exact ⟨_, .input isFinal, stream, List.suffix_rfl⟩

theorem advances_chain {statement : Statement} (stream : Token.Stream feed.all)
    (h : feed.chain = .ok (statement, next)) : Advances feed next := by
  apply advances_of_verdict (chain_verdict stream) ?_ ?_ h
  · intro ts statement chain
    obtain ⟨id, more, rfl, -⟩ := chain_head chain
    exact List.cons_ne_nil _ _
  · intro ts t post statement chain isEnd behind eq
    obtain ⟨rest, ends, whole, suffix⟩ := ends_of_atEnd isEnd behind
    obtain ⟨after, read, isRest⟩ := chain_of_rule chain eq ends
    exact ⟨statement, after, read, isRest ▸ whole, isRest ▸ suffix⟩

theorem advances_head {head : Head} (opens : feed.kind = .subgraph) (stream : Token.Stream feed.all)
    (h : feed.head = .ok (head, next)) : Advances feed next := by
  obtain ⟨first, rest, split⟩ := exists_first feed
  have opens : first.kind = .subgraph := kind_of_all split ▸ opens
  apply advances_of_verdict (split ▸ header_verdict opens (split ▸ stream)) ?_ ?_ h
  · intro ts head header
    obtain ⟨more, rfl, -⟩ := header_head header
    exact List.cons_ne_nil _ _
  · intro ts t post head header isEnd behind eq
    obtain ⟨rest, ends, whole, suffix⟩ := ends_of_atEnd isEnd behind
    obtain ⟨after, read, isRest⟩ := head_of_header header eq ends
    exact ⟨head, after, read, isRest ▸ whole, isRest ▸ suffix⟩

theorem advances_declaration {declared : Direction × Span} (stream : Token.Stream feed.all)
    (h : feed.declaration = .ok (declared, next)) : Advances feed next := by
  apply advances_of_verdict (declaration_verdict stream) ?_ ?_ h
  · intro ts direction rule
    cases rule <;> exact List.cons_ne_nil _ _
  · intro ts t post direction rule isEnd behind eq
    obtain ⟨rest, ends, whole, suffix⟩ := ends_of_atEnd isEnd behind
    obtain ⟨after, read, isRest⟩ := declaration_of_rule rule eq ends
    exact ⟨_, after, read, isRest ▸ whole, isRest ▸ suffix⟩

theorem advances_advance (stream : Token.Stream feed.all) (word : feed.kind = .close) : Advances feed feed.advance := by
  obtain ⟨t, ts, split⟩ := exists_first feed
  rw [split] at stream
  have behind := Token.stream_cases stream
  rw [← kind_of_all split, word] at behind
  obtain ⟨u, us, rfl⟩ := Token.stream_ne_nil behind
  have rest := all_advance split
  refine ⟨⟨rest ▸ behind, ?_⟩, ?_⟩
  · rw [rest, split]
    exact List.suffix_cons _ _
  · rw [rest, split]
    exact Nat.lt_succ_self _

theorem leaves_endStatement (stream : Token.Stream feed.all) (h : feed.endStatement = .ok next) : Leaves feed next := by
  obtain ⟨t, ts, split⟩ := exists_first feed
  have isEnd : AtEnd [] t := by
    rw [AtEnd, ← kind_of_all split]
    exact (endStatement_ok h).1
  obtain ⟨rest, ends, whole, suffix⟩ := ends_of_atEnd isEnd (split ▸ stream)
  obtain ⟨after, read, isRest⟩ := endStatement_of_ends (show Ends feed.all rest from split ▸ ends)
  rw [h] at read
  cases read
  rw [← isRest] at whole suffix
  exact ⟨whole, split ▸ suffix⟩

/-- The loops of the reader: over blank lines, over the links of a chain, and over the statements of the blocks that
are open. -/
inductive Loop where
  | blanks
  | links
  | statements (blocks : List Block)

/-- A turn of a loop that goes on behind it. -/
inductive Turn : Loop → Feed → Feed → Prop where
  | blank {feed : Feed} : feed.kind = .newline → Turn .blanks feed { feed with rest := feed.rest.tail }
  | link {feed behind next : Feed} {link : Link} {ref : NodeRef} : feed.atLink = true →
      feed.link = .ok (link, behind) → behind.nodeRef = .ok (ref, next) → Turn .links feed next
  | chain {feed next : Feed} {blocks : List Block} {statement : Statement} : feed.skipNewlines.kind = .identifier →
      feed.skipNewlines.chain = .ok (statement, next) → Turn (.statements blocks) feed next
  | head {feed next : Feed} {blocks : List Block} {head : Head} : feed.skipNewlines.kind = .subgraph →
      feed.skipNewlines.head = .ok (head, next) → Turn (.statements blocks) feed next
  | close {feed next : Feed} {block : Block} {blocks : List Block} : feed.skipNewlines.kind = .close →
      feed.skipNewlines.advance.endStatement = .ok next → Turn (.statements (block :: blocks)) feed next

/-- Every turn reads some tokens. -/
theorem advances_of_turn {loop : Loop} (stream : Token.Stream feed.all) (turn : Turn loop feed next) :
    Advances feed next := by
  cases turn with
  | blank isLine => exact advances_blank stream isLine
  | link atLink readLink readNode =>
    have first := advances_link atLink stream readLink
    exact first.leaves (advances_nodeRef first.stream readNode).toLeaves
  | chain isId read =>
    have skipped := (leaves_skipNewlines stream).1
    exact skipped.advances (advances_chain skipped.stream read)
  | head opens read =>
    have skipped := (leaves_skipNewlines stream).1
    exact skipped.advances (advances_head opens skipped.stream read)
  | close closes read =>
    have skipped := (leaves_skipNewlines stream).1
    have word := advances_advance skipped.stream closes
    exact skipped.advances (word.leaves (leaves_endStatement word.stream read))

variable (feed) in
/-- The loop over blank lines goes on behind one, and stops where there is none. -/
def BlanksGoOn : Prop :=
  (∃ next, Turn .blanks feed next ∧ feed.skipNewlines = next.skipNewlines) ∨
    (∀ next, ¬Turn .blanks feed next) ∧ feed.skipNewlines = feed

variable (feed) in
/-- The loop over links goes on behind a link and its node, and returns where there is no link or one is refused. -/
def LinksGoOn : Prop :=
  (∃ next link ref, Turn .links feed next ∧
    feed.links = next.links.map fun more => ((link, ref) :: more.1, more.2)) ∨
  (∀ next, ¬Turn .links feed next) ∧ (feed.links = .ok ([], feed) ∨ ∃ error, feed.links = .error error)

variable (feed blocks done) in
/-- The loop over statements goes on behind a statement, the head of a block or its end, and returns at the end of the
input and where something is refused. -/
def StatementsGoOn : Prop :=
  (∃ next inside before, Turn (.statements blocks) feed next ∧
    feed.statements blocks done = next.statements inside before) ∨
  (∀ next, ¬Turn (.statements blocks) feed next) ∧
    ((blocks = [] ∧ feed.statements blocks done = .ok done.reverse) ∨
      ∃ error, feed.statements blocks done = .error error)

theorem blanksGoOn : BlanksGoOn feed := by
  by_cases isLine : feed.kind = .newline
  · refine .inl ⟨_, .blank isLine, ?_⟩
    obtain ⟨rest, final, latest⟩ := feed
    cases rest with
    | nil => rfl
    | cons t rest =>
      have isLine : t.kind = .newline := isLine
      simp [skipNewlines, isLine]
  · refine .inr ⟨?_, ?_⟩
    · rintro next ⟨isBlank⟩
      exact isLine isBlank
    · obtain ⟨t, ts, split⟩ := exists_first feed
      exact skipNewlines_of_all split (kind_of_all split ▸ isLine)

theorem linksGoOn : LinksGoOn feed := by
  obtain ⟨t, ts, split⟩ := exists_first feed
  by_cases atLink : feed.atLink = true
  · have opens : t.kind = .arrow ∨ t.kind = .linkStart := by simpa [Feed.atLink, kind_of_all split] using atLink
    have step := links_step split opens
    cases readLink : feed.link with
    | error error =>
      refine .inr ⟨?_, .inr ⟨error, by rw [step, readLink]; rfl⟩⟩
      intro next turn
      cases turn with
      | link _ read => cases readLink.symm.trans read
    | ok link =>
      obtain ⟨link, behind⟩ := link
      cases readNode : behind.nodeRef with
      | error error =>
        refine .inr ⟨?_, .inr ⟨error, by rw [step, readLink]; simp [Except.bind, readNode]⟩⟩
        intro next turn
        cases turn with
        | link _ read behindLink =>
          cases readLink.symm.trans read
          cases readNode.symm.trans behindLink
      | ok node =>
        obtain ⟨ref, next⟩ := node
        refine .inl ⟨next, link, ref, .link atLink readLink readNode, ?_⟩
        rw [step, readLink]
        cases more : next.links <;> simp [Except.bind, readNode, more, Except.map]
  · refine .inr ⟨?_, .inl ?_⟩
    · intro next turn
      cases turn with
      | link isLink => exact atLink isLink
    · rw [links, dif_neg atLink]

theorem statementsGoOn (stream : Token.Stream feed.all) : StatementsGoOn feed blocks done := by
  have other := (leaves_skipNewlines stream).2
  obtain ⟨t, ts, split⟩ := exists_first feed.skipNewlines
  have kind := kind_of_all split
  rw [kind] at other
  have skipped : feed.statements blocks done = feed.skipNewlines.statements blocks done := by
    rw [statements.eq_def, statements.eq_def blocks done feed.skipNewlines, skipNewlines_of_all split other]
  have step := skipped.trans (statements_step split other)
  -- A turn starts with a token of its own kind, and what it reads is read by the loop.
  cases isKind : t.kind <;> rw [isKind] at kind <;> simp only [isKind] at step
  case newline => exact absurd isKind other
  case endOfInput =>
    refine .inr ⟨?_, ?_⟩
    · intro next turn
      cases turn <;> simp_all
    · cases blocks with
      | nil => exact .inl ⟨rfl, step⟩
      | cons block blocks => exact .inr ⟨_, step⟩
  case identifier =>
    cases read : feed.skipNewlines.chain with
    | ok result =>
      rw [read] at step
      exact .inl ⟨_, _, _, .chain kind read, step⟩
    | error error =>
      rw [read] at step
      refine .inr ⟨?_, .inr ⟨error, step⟩⟩
      intro next turn
      cases turn <;> simp_all
  case subgraph =>
    cases read : feed.skipNewlines.head with
    | ok result =>
      rw [read] at step
      exact .inl ⟨_, _, _, .head kind read, step⟩
    | error error =>
      rw [read] at step
      refine .inr ⟨?_, .inr ⟨error, step⟩⟩
      intro next turn
      cases turn <;> simp_all
  case close =>
    cases blocks with
    | nil =>
      refine .inr ⟨?_, .inr ⟨_, step⟩⟩
      intro next turn
      cases turn <;> simp_all
    | cons block blocks =>
      cases read : feed.skipNewlines.advance.endStatement with
      | ok next =>
        simp only [read] at step
        exact .inl ⟨_, _, _, .close kind read, step⟩
      | error error =>
        simp only [read] at step
        refine .inr ⟨?_, .inr ⟨error, step⟩⟩
        intro next turn
        cases turn <;> simp_all
  all_goals
    refine .inr ⟨?_, .inr ⟨_, step⟩⟩
    intro next turn
    cases turn <;> simp_all

/-- Where the reading of some tokens comes by, at the start and behind the declaration, the first node of a chain and
every turn of a loop. -/
inductive Reached (tokens : List Token) : Feed → Prop where
  | start {feed : Feed} : feed.all = tokens → Reached tokens feed
  | declared {feed next : Feed} {declared : Direction × Span} : Reached tokens feed →
      feed.declaration = .ok (declared, next) → Reached tokens next
  | node {feed next : Feed} {ref : NodeRef} : Reached tokens feed → feed.nodeRef = .ok (ref, next) →
      Reached tokens next
  | turn {feed next : Feed} {loop : Loop} : Reached tokens feed → Turn loop feed next → Reached tokens next

/-- The reading of whole lexemes never stands inside one. -/
theorem leaves_of_reached {tokens : List Token} (stream : Token.Stream tokens) (reached : Reached tokens feed) :
    Token.Stream feed.all ∧ feed.all <:+ tokens := by
  induction reached with
  | start all =>
    subst all
    exact ⟨stream, List.suffix_rfl⟩
  | declared _ read ih =>
    have advances := advances_declaration ih.1 read
    exact ⟨advances.stream, advances.suffix.trans ih.2⟩
  | node _ read ih =>
    have advances := advances_nodeRef ih.1 read
    exact ⟨advances.stream, advances.suffix.trans ih.2⟩
  | turn _ turn ih =>
    have advances := advances_of_turn ih.1 turn
    exact ⟨advances.stream, advances.suffix.trans ih.2⟩

end Feed

/-- A shape comes with a label, and a label has text. -/
structure NodeRef.IsWhole (ref : NodeRef) : Prop where
  shape : ref.shape.isSome = ref.label.isSome
  label : ref.label ≠ some ""

/-- Every label has text, every shape comes with a label, and the links of a chain are one fewer than its nodes, of
which there are two at least. -/
inductive Statement.IsWhole : Statement → Prop where
  | node {ref : NodeRef} {span : Span} : ref.IsWhole → IsWhole (.node ref span)
  | chain {nodes : List NodeRef} {links : List Link} {span : Span} : 2 ≤ nodes.length →
      links.length = nodes.length - 1 → (∀ ref ∈ nodes, ref.IsWhole) →
      (∀ link ∈ links, link.label ≠ some "") → IsWhole (.chain nodes links span)
  | subgraph {id : String} {title : Option String} {body : List Statement} {span : Span} :
      (∀ statement ∈ body, IsWhole statement) → IsWhole (.subgraph id title body span)

namespace Grammar

open Feed (Block)

variable {ts : List Token}

theorem isWhole_of_mention {ref : NodeRef} (rule : Mention ts ref) : ref.IsWhole := by
  cases rule with
  | bare => exact ⟨rfl, by simp⟩
  | declared _ _ isLabel => exact ⟨rfl, by simpa using isLabel.2⟩

theorem label_of_joint {link : Link} (rule : Joint ts link) : link.label ≠ some "" := by
  cases rule with
  | plain => simp
  | barred _ _ isLabel => simpa using isLabel.2
  | inner _ isLabel => simpa using isLabel.2

theorem isWhole_of_joints {more : List (Link × NodeRef)} (rule : Joints ts more) :
    (∀ ref ∈ more.map Prod.snd, ref.IsWhole) ∧ ∀ link ∈ more.map Prod.fst, link.label ≠ some "" := by
  induction rule with
  | nil => simp
  | cons joint mention _ ih =>
    simp only [List.map_cons, List.forall_mem_cons]
    exact ⟨⟨isWhole_of_mention mention, ih.1⟩, label_of_joint joint, ih.2⟩

theorem isWhole_of_chain {statement : Statement} (rule : Chain ts statement) : statement.IsWhole := by
  cases rule with
  | node mention => exact .node (isWhole_of_mention mention)
  | @edges ts us ref more mention joints some =>
    have positive := List.length_pos_iff.2 some
    obtain ⟨nodes, links⟩ := isWhole_of_joints joints
    refine .chain ?_ (by simp) (List.forall_mem_cons.2 ⟨isWhole_of_mention mention, nodes⟩) links
    rw [List.length_cons, List.length_map]
    omega

theorem isWhole_of_sentence {statement : Statement} (rule : Sentence ts statement) : statement.IsWhole := by
  have both := sentence_lines_induction (P := fun _ statement => statement.IsWhole)
    (Q := fun _ body => ∀ statement ∈ body, statement.IsWhole) isWhole_of_chain
    (fun _ _ inner _ => .subgraph inner) (List.forall_mem_nil _) (fun front _ => front)
    (fun front last _ => List.forall_mem_append.2 ⟨front, List.forall_mem_singleton.2 last⟩)
  exact both.1 ts statement rule

theorem isWhole_of_opened {direction : Direction} {span : Span} {blocks : List Block} {done : List Statement}
    (opened : Opened direction span ts blocks done) : ∀ statement ∈ done, statement.IsWhole := by
  induction opened with
  | declared => exact List.forall_mem_nil _
  | blank _ _ ih => exact ih
  | sentence _ rule _ ih => exact List.forall_mem_cons.2 ⟨isWhole_of_sentence rule, ih⟩
  | header => exact List.forall_mem_nil _

theorem isWhole_of_document {diagram : Diagram} (rule : Document ts diagram) :
    ∀ statement ∈ diagram.statements, statement.IsWhole := by
  obtain ⟨opened, -, -⟩ := rule
  simpa using isWhole_of_opened opened

end Grammar

namespace Diagram

/-- Whole lexemes are read to the end. Every loop takes a turn, which reads some of them, or returns; every mark is in
its table; and what is read is whole itself. -/
structure ReadsThrough (tokens : List Token) : Prop where
  loops : ∀ feed, Feed.Reached tokens feed →
    feed.BlanksGoOn ∧ feed.LinksGoOn ∧ ∀ blocks done, feed.StatementsGoOn blocks done
  turns : ∀ feed, Feed.Reached tokens feed → ∀ loop next, Feed.Turn loop feed next →
    next.all.length < feed.all.length
  refusals : ∀ error, ofTokens tokens = .error error → ∃ fault, ∃ place ∈ tokens, error = .refused fault place
  whole : ∀ diagram, ofTokens tokens = .ok diagram → ∀ statement ∈ diagram.statements, statement.IsWhole

theorem readsThrough_of_isWhole {tokens : List Token} (whole : Token.IsWhole tokens) : ReadsThrough tokens where
  loops := by
    intro feed reached
    have here := (Feed.leaves_of_reached whole.stream reached).1
    exact ⟨Feed.blanksGoOn, Feed.linksGoOn, fun blocks done => Feed.statementsGoOn here⟩
  turns := by
    intro feed reached loop next turn
    have here := (Feed.leaves_of_reached whole.stream reached).1
    exact (Feed.advances_of_turn here turn).shorter
  refusals := by
    intro error read
    exact refused_of_ofTokens whole.stream read
  whole := by
    intro diagram read
    exact Grammar.isWhole_of_document (document_of_ofTokens whole.stream read)

/-- What becomes of a source. -/
inductive Ending (source : String) : Prop where
  | diagram {diagram : Diagram} : ofSource source = .ok diagram →
      (∀ statement ∈ diagram.statements, statement.IsWhole) → Ending source
  | unscanned {error : LexError} : Token.scan source = .error error → ofSource source = .error error.failure →
      Ending source
  | refused {tokens : List Token} {fault : ParseFault} {place : Token} : Token.scan source = .ok tokens →
      place ∈ tokens → ofSource source = .error (ParseError.refused fault place).failure → Ending source

/-- The tokens of every source are whole lexemes, whole lexemes are always read through, and a source ends as a diagram
that is whole, with the fault of a lexeme, or with the refusal of a token. -/
theorem ofSource_total (source : String) :
    (∀ tokens, Token.scan source = .ok tokens → Token.IsWhole tokens) ∧
      (∀ tokens, Token.IsWhole tokens → ReadsThrough tokens) ∧ Ending source := by
  have whole (tokens : List Token) (scanned : Token.scan source = .ok tokens) : Token.IsWhole tokens :=
    Token.isWhole_of_stream (Token.stream_of_scan scanned)
  refine ⟨whole, fun tokens => readsThrough_of_isWhole, ?_⟩
  cases scanned : Token.scan source with
  | error error => exact .unscanned scanned (ofSource_of_scan_error scanned)
  | ok tokens =>
    have reads := readsThrough_of_isWhole (whole tokens scanned)
    cases read : ofTokens tokens with
    | ok diagram => exact .diagram (ofSource_of_ofTokens scanned read) (reads.whole diagram read)
    | error error =>
      obtain ⟨fault, place, mem, rfl⟩ := reads.refusals error read
      exact .refused scanned mem (ofSource_of_parse_error scanned read)

end Diagram
end Flowchart
