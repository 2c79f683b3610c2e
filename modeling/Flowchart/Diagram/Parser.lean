import Flowchart.Diagram
import Flowchart.Failure
import Flowchart.Token.Lexer

/-!
From tokens to a diagram. The first token that fits no rule ends the reading. Open blocks are kept on a
stack, so that a statement, the head of a block and its `end` are each read by one step of a single
loop over the tokens.
-/
namespace Flowchart

/-- Why a token does not fit. -/
inductive ParseFault where
  | noDeclaration
  | unknownDeclaration
  | otherThanDeclaration
  | unknownDirection
  | expected (what : String)
  | titleBracket
  | emptyNodeLabel (id : String)
  | emptyEdgeLabel
  | strayEnd
  | secondDeclaration
  | noStatement
  | unclosedSubgraph (id : String)
  deriving DecidableEq, Repr

namespace ParseFault

/-- The words that may open a diagram, as messages list them. -/
def declarations : String :=
  "'flowchart', 'graph'"

/-- The known directions, as messages list them. -/
def directions : String :=
  ", ".intercalate (Direction.all.map fun direction => Text.quoted direction.name)

def message (token : Token) : ParseFault → String
  | noDeclaration => s!"Missing diagram type declaration: expected one of {declarations}"
  | unknownDeclaration =>
    s!"Unknown diagram type declaration {Text.quoted token.text}: expected one of {declarations}"
  | otherThanDeclaration =>
    s!"Missing diagram type declaration: expected one of {declarations}, got {token.describe}"
  | unknownDirection =>
    s!"Unknown direction {Text.quoted token.text}: expected one of {directions}"
  | expected what => s!"Expected {what}, got {token.describe}"
  | titleBracket => s!"Expected '[' around subgraph title, got {Text.quoted token.text}"
  | emptyNodeLabel id => s!"Empty label for node {Text.quoted id}"
  | emptyEdgeLabel => "Empty edge label"
  | strayEnd => "Unexpected 'end' outside of a subgraph"
  | secondDeclaration =>
    s!"Unexpected diagram type declaration {Text.quoted token.text}: only one is allowed"
  | noStatement => s!"Unexpected {token.describe} at start of statement"
  | unclosedSubgraph id =>
    s!"Unterminated subgraph {Text.quoted id}: expected 'end' before end of input"

end ParseFault

/-- Why tokens are no diagram. Only tokens that no source yields can be absent altogether or carry a
mark that is no bracket and no arrow. -/
inductive ParseError where
  | refused (fault : ParseFault) (token : Token)
  | unknownMark (text : String)
  | noTokens
  deriving DecidableEq, Repr

namespace ParseError

def failure : ParseError → Failure
  | refused fault token => ⟨.parse, fault.message token, some token.position, []⟩
  | unknownMark text => ⟨.parse, Text.quoted text, none, []⟩
  | noTokens => ⟨.parse, "list index out of range", none, []⟩

end ParseError

/-- Tokens still to be read. The last token of the input is kept apart, for it is there again however
often it is read; `last` is the token read most recently. -/
structure Feed where
  rest : List Token
  final : Token
  last : Token

namespace Feed

def current (feed : Feed) : Token :=
  feed.rest.headD feed.final

def kind (feed : Feed) : Token.Kind :=
  feed.current.kind

/-- The kind of the token after the next. -/
def followingKind (feed : Feed) : Token.Kind :=
  match feed.rest with
  | [] => .endOfInput
  | [_] => feed.final.kind
  | _ :: token :: _ => token.kind

def advance (feed : Feed) : Feed :=
  { feed with rest := feed.rest.tail, last := feed.current }

/-- Reads the next tokens as long as they end lines. -/
def skipNewlines (feed : Feed) : Feed :=
  { feed with rest := feed.rest.dropWhile (·.kind = .newline) }

/-- The range from a token to the end of the token read most recently. -/
def spanFrom (feed : Feed) (first : Token) : Span :=
  ⟨first.position, feed.last.stop⟩

def refuse {α : Type} (feed : Feed) (fault : ParseFault) : Except ParseError α :=
  .error (.refused fault feed.current)

def identifier (feed : Feed) (what : String) : Except ParseError (Token × Feed) :=
  if feed.kind = .identifier then .ok (feed.current, feed.advance)
  else feed.refuse (.expected what)

/-- Reads the end of a statement: the end of a line, or the end of the input, which stays. -/
def endStatement (feed : Feed) : Except ParseError Feed :=
  if feed.kind = .newline then .ok feed.advance
  else if feed.kind = .endOfInput then .ok feed
  else feed.refuse (.expected "end of statement")

/-- Reads the word that opens a diagram and the direction behind it. -/
def declaration (feed : Feed) : Except ParseError ((Direction × Span) × Feed) := do
  let first := feed.current
  if first.kind = .endOfInput then feed.refuse .noDeclaration
  else if first.kind ≠ .graph && first.kind ≠ .flowchart then
    if first.kind = .identifier
        && (feed.followingKind = .newline || feed.followingKind = .endOfInput) then
      feed.refuse .unknownDeclaration
    else feed.refuse .otherThanDeclaration
  else
    let feed := feed.advance
    let (direction, feed) ←
      if feed.kind = .identifier then
        match Direction.ofName? feed.current.text with
        | some direction => pure (direction, feed.advance)
        | none => feed.refuse .unknownDirection
      else pure (Direction.TD, feed)
    let span := feed.spanFrom first
    let feed ← feed.endStatement
    if first.text = "graph" || first.text = "flowchart" then return ((direction, span), feed)
    else throw (.unknownMark first.text)

/-- Reads a mention of a node. A bracket behind the id always belongs to it. -/
def nodeRef (feed : Feed) : Except ParseError (NodeRef × Feed) := do
  let (id, feed) ← feed.identifier "node id"
  if feed.kind ≠ .openBracket then
    return ({ id := id.text, span := feed.spanFrom id }, feed)
  else
    let bracket := feed.current
    let feed := feed.advance
    let label := feed.current
    if label.text = "" then feed.refuse (.emptyNodeLabel id.text)
    else
      let feed := feed.advance.advance
      match Shape.ofOpener? bracket.text with
      | some shape =>
        return ({ id := id.text, shape := shape, label := label.text, span := feed.spanFrom id }, feed)
      | none => throw (.unknownMark bracket.text)

/-- Reads the tokens of a link, with its label between bars or inside it: the arrow and the label. -/
def linkParts (feed : Feed) : Except ParseError ((Token × Option String) × Feed) :=
  let opened := feed.advance
  if feed.kind = .linkStart then
    if opened.current.text = "" then opened.refuse .emptyEdgeLabel
    else .ok ((opened.advance.current, some opened.current.text), opened.advance.advance)
  else if opened.kind = .pipe then
    let labelled := opened.advance
    if labelled.current.text = "" then labelled.refuse .emptyEdgeLabel
    else .ok ((feed.current, some labelled.current.text), labelled.advance.advance)
  else .ok ((feed.current, none), opened)

def link (feed : Feed) : Except ParseError (Link × Feed) :=
  match feed.linkParts with
  | .error error => .error error
  | .ok ((arrow, label), behind) =>
    match EdgeStyle.ofArrow? arrow.text with
    | some (style, head) => .ok (⟨style, head, label, behind.spanFrom feed.current⟩, behind)
    | none => .error (.unknownMark arrow.text)

theorem length_advance_le (feed : Feed) : feed.advance.rest.length ≤ feed.rest.length - 1 := by
  simp [advance]

theorem final_advance (feed : Feed) : feed.advance.final = feed.final := rfl

theorem kind_eq_final {feed : Feed} (h : feed.rest = []) : feed.kind = feed.final.kind := by
  simp [kind, current, h]

theorem identifier_ok {feed next : Feed} {what : String} {token : Token}
    (h : feed.identifier what = .ok (token, next)) :
    feed.kind = .identifier ∧ next = feed.advance := by
  unfold identifier at h
  split at h
  · cases h; exact ⟨‹_›, rfl⟩
  · cases h

theorem endStatement_ok {feed next : Feed} (h : feed.endStatement = .ok next) :
    (feed.kind = .newline ∨ feed.kind = .endOfInput) ∧ next.rest.length ≤ feed.rest.length := by
  unfold endStatement at h
  split at h
  · cases h
    exact ⟨.inl ‹_›, Nat.le_trans (length_advance_le feed) (Nat.sub_le _ _)⟩
  · split at h
    · cases h; exact ⟨.inr ‹_›, Nat.le_refl _⟩
    · cases h

theorem nodeRef_ok {feed next : Feed} {ref : NodeRef} (h : feed.nodeRef = .ok (ref, next)) :
    feed.kind = .identifier ∧ next.rest.length ≤ feed.rest.length - 1 ∧ next.final = feed.final := by
  simp only [nodeRef, bind, Except.bind] at h
  split at h
  · cases h
  · rename_i found read
    obtain ⟨isId, next_eq⟩ := identifier_ok read
    have first := length_advance_le feed
    split at h
    · cases h
      exact ⟨isId, next_eq ▸ first, by rw [next_eq]; rfl⟩
    · split at h
      · cases h
      · split at h
        · cases h
          refine ⟨isId, ?_, by rw [next_eq]; rfl⟩
          simp only [next_eq, advance, List.length_tail]
          omega
        · cases h

theorem linkParts_ok {feed next : Feed} {parts : Token × Option String}
    (h : feed.linkParts = .ok (parts, next)) :
    next.rest.length ≤ feed.rest.length - 1 ∧ next.final = feed.final := by
  simp only [linkParts] at h
  split at h
  · split at h
    · cases h
    · cases h
      exact ⟨by simp only [advance, List.length_tail]; omega, rfl⟩
  · split at h
    · split at h
      · cases h
      · cases h
        exact ⟨by simp only [advance, List.length_tail]; omega, rfl⟩
    · cases h
      exact ⟨length_advance_le feed, rfl⟩

theorem link_ok {feed next : Feed} {link : Link} (h : feed.link = .ok (link, next)) :
    next.rest.length ≤ feed.rest.length - 1 ∧ next.final = feed.final := by
  simp only [Feed.link] at h
  split at h
  · cases h
  · rename_i read
    split at h
    · cases h; exact linkParts_ok read
    · cases h

/-- A link opens with an arrow or with the start of a link around its label. -/
def atLink (feed : Feed) : Bool :=
  feed.kind = .arrow || feed.kind = .linkStart

/-- Reads links, each with the node behind it, as long as there are any. -/
def links (feed : Feed) : Except ParseError (List (Link × NodeRef) × Feed) :=
  if _isLink : feed.atLink then
    match _link : feed.link with
    | .error error => .error error
    | .ok (link, behindLink) =>
      match _node : behindLink.nodeRef with
      | .error error => .error error
      | .ok (node, behindNode) => do
        let (more, behind) ← links behindNode
        return ((link, node) :: more, behind)
  else .ok ([], feed)
termination_by feed.rest.length
decreasing_by
  obtain ⟨shorter, final⟩ := link_ok _link
  obtain ⟨isId, shorterNode, _⟩ := nodeRef_ok _node
  have nonempty : feed.rest ≠ [] := by
    intro empty
    have rest : behindLink.rest = [] := by
      rw [empty] at shorter
      exact List.eq_nil_of_length_eq_zero (Nat.le_zero.1 shorter)
    rw [kind_eq_final rest, final] at isId
    rw [atLink, kind_eq_final empty, isId] at _isLink
    simp at _isLink
  have := List.length_pos_iff.2 nonempty
  omega

theorem links_ok {feed next : Feed} {more : List (Link × NodeRef)}
    (h : feed.links = .ok (more, next)) :
    next.rest.length ≤ feed.rest.length ∧ next.final = feed.final := by
  fun_induction links feed generalizing more next with
  | case1 => cases h
  | case2 => cases h
  | case3 feed isLink link behindLink readLink node behindNode readNode ih =>
    simp only [bind, Except.bind] at h
    split at h
    · cases h
    · rename_i found readMore
      cases h
      obtain ⟨shorter, final⟩ := ih readMore
      obtain ⟨shorterLink, finalLink⟩ := link_ok readLink
      obtain ⟨-, shorterNode, finalNode⟩ := nodeRef_ok readNode
      exact ⟨by omega, by rw [final, finalNode, finalLink]⟩
  | case4 feed => cases h; exact ⟨Nat.le_refl _, rfl⟩

/-- Reads a mention of a node or a chain of them. -/
def chain (feed : Feed) : Except ParseError (Statement × Feed) := do
  let first := feed.current
  let (node, feed) ← feed.nodeRef
  let (more, feed) ← feed.links
  let span := feed.spanFrom first
  let feed ← feed.endStatement
  if more.isEmpty then return (.node node span, feed)
  else return (.chain (node :: more.map Prod.snd) (more.map Prod.fst) span, feed)

/-- The head of a block: the word that opens it, its id and its title. An empty title counts as none. -/
structure Head where
  opener : Token
  id : String
  title : Option String

def head (feed : Feed) : Except ParseError (Head × Feed) := do
  let opener := feed.current
  let (id, feed) ← feed.advance.identifier "subgraph id"
  if feed.kind = .openBracket then
    if feed.current.text ≠ "[" then feed.refuse .titleBracket
    else
      let feed := feed.advance
      let title := feed.current.text
      let feed ← feed.advance.advance.endStatement
      return (⟨opener, id.text, if title = "" then none else some title⟩, feed)
  else
    let feed ← feed.endStatement
    return (⟨opener, id.text, none⟩, feed)

/-- An open block: its head and the statements in front of it, the latest first. -/
structure Block where
  head : Head
  before : List Statement

theorem chain_ok {feed next : Feed} {statement : Statement}
    (h : feed.chain = .ok (statement, next)) : next.rest.length < feed.rest.length := by
  simp only [chain, bind, Except.bind] at h
  split at h
  · cases h
  · rename_i node readNode
    split at h
    · cases h
    · rename_i more readMore
      split at h
      · cases h
      · rename_i behind readEnd
        have result : next = behind := by split at h <;> cases h <;> rfl
        obtain ⟨isId, shorterNode, finalNode⟩ := nodeRef_ok readNode
        obtain ⟨shorter, final⟩ := links_ok readMore
        obtain ⟨ends, shorterEnd⟩ := endStatement_ok readEnd
        have nonempty : feed.rest ≠ [] := by
          intro empty
          have rest : more.2.rest = [] := List.eq_nil_of_length_eq_zero (by simp_all)
          rw [kind_eq_final rest, final, finalNode, ← kind_eq_final empty, isId] at ends
          simp at ends
        have := List.length_pos_iff.2 nonempty
        rw [result]
        omega

theorem head_ok {feed next : Feed} {head : Head} (opens : feed.kind = .subgraph)
    (h : feed.head = .ok (head, next)) : next.rest.length < feed.rest.length := by
  simp only [Feed.head, bind, Except.bind] at h
  split at h
  · cases h
  · rename_i id readId
    obtain ⟨isId, next_eq⟩ := identifier_ok readId
    have nonempty : feed.rest ≠ [] := by
      intro empty
      have rest : feed.advance.rest = [] := by simp [advance, empty]
      rw [kind_eq_final rest, final_advance, ← kind_eq_final empty, opens] at isId
      cases isId
    have positive := List.length_pos_iff.2 nonempty
    have shorter : id.2.rest.length ≤ feed.rest.length - 1 := by
      rw [next_eq]
      simp only [advance, List.length_tail]
      omega
    split at h
    · split at h
      · cases h
      · split at h
        · cases h
        · rename_i behind readEnd
          cases h
          have := (endStatement_ok readEnd).2
          simp only [advance, List.length_tail] at this
          omega
    · split at h
      · cases h
      · rename_i behind readEnd
        cases h
        have := (endStatement_ok readEnd).2
        omega

theorem endStatement_advance_ok {feed next : Feed}
    (other : feed.kind ≠ .newline ∧ feed.kind ≠ .endOfInput)
    (h : feed.advance.endStatement = .ok next) : next.rest.length < feed.rest.length := by
  obtain ⟨ends, shorter⟩ := endStatement_ok h
  have nonempty : feed.rest ≠ [] := by
    intro empty
    have rest : feed.advance.rest = [] := by simp [advance, empty]
    rw [kind_eq_final rest, final_advance, ← kind_eq_final empty] at ends
    exact ends.elim other.1 other.2
  have := List.length_pos_iff.2 nonempty
  simp only [advance, List.length_tail] at shorter
  omega

theorem length_skipNewlines_le (feed : Feed) :
    feed.skipNewlines.rest.length ≤ feed.rest.length :=
  (List.dropWhile_suffix _).length_le

/-- Reads statements to the end of the input. `blocks` are the open blocks, the innermost first, and
`done` the statements of the innermost, the latest first. -/
def statements (blocks : List Block) (done : List Statement) (input : Feed) :
    Except ParseError (List Statement) :=
  let feed := input.skipNewlines
  match _kind : feed.kind with
  | .endOfInput =>
    match blocks with
    | [] => .ok done.reverse
    | block :: _ => .error (.refused (.unclosedSubgraph block.head.id) block.head.opener)
  | .close =>
    match blocks with
    | [] => feed.refuse .strayEnd
    | ⟨head, before⟩ :: outer =>
      let span := feed.advance.spanFrom head.opener
      match _read : feed.advance.endStatement with
      | .error error => .error error
      | .ok behind => statements outer (.subgraph head.id head.title done.reverse span :: before) behind
  | .subgraph =>
    match _read : feed.head with
    | .error error => .error error
    | .ok (head, behind) => statements (⟨head, done⟩ :: blocks) [] behind
  | .identifier =>
    match _read : feed.chain with
    | .error error => .error error
    | .ok (statement, behind) => statements blocks (statement :: done) behind
  | .graph | .flowchart => feed.refuse .secondDeclaration
  | _ => feed.refuse .noStatement
termination_by input.rest.length
decreasing_by
  all_goals have skipped := length_skipNewlines_le input
  · have := @endStatement_advance_ok input.skipNewlines _
      (by rw [show input.skipNewlines.kind = _ from _kind]; decide) _read
    omega
  · have := @head_ok input.skipNewlines _ _ _kind _read
    omega
  · have := @chain_ok input.skipNewlines _ _ _read
    omega

end Feed

namespace Diagram

def ofTokens (tokens : List Token) : Except ParseError Diagram :=
  match tokens.getLast? with
  | none => .error .noTokens
  | some final => do
    let feed : Feed := ⟨tokens.dropLast, final, tokens.headD final⟩
    let ((direction, span), feed) ← feed.skipNewlines.declaration
    let statements ← feed.statements [] []
    return ⟨direction, span, statements⟩

def ofSource (source : String) : Except Failure Diagram := do
  let tokens ← (Token.scan source).mapError LexError.failure
  (ofTokens tokens).mapError ParseError.failure

end Diagram
end Flowchart
