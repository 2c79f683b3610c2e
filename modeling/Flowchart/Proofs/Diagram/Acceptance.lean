import Flowchart.Proofs.Diagram.Grammar

/-!
Whatever the grammar derives is read, as the tree of its derivation. Each phrase is followed through the
reader with what stands behind it in view, for the reader looks one token ahead where a phrase could go on.
-/
namespace Flowchart

namespace Feed

/-- The tokens still to be read, the last one of the input included. -/
def all (feed : Feed) : List Token :=
  feed.rest ++ [feed.final]

variable {feed : Feed} {t u : Token} {ts : List Token}

/-- The last of two pieces is that of the first if the second is empty. -/
theorem getLastD_append (ts us : List Token) (last : Token) :
    (ts ++ us).getLastD last = us.getLastD (ts.getLastD last) := by
  induction ts generalizing last with
  | nil => rfl
  | cons t ts ih => simpa only [List.cons_append, List.getLastD_cons] using ih t

theorem current_of_all (h : feed.all = t :: ts) : feed.current = t := by
  obtain ⟨rest, final, last⟩ := feed
  cases rest <;> simp_all [all, current]

theorem kind_of_all (h : feed.all = t :: ts) : feed.kind = t.kind := by
  rw [kind, current_of_all h]

theorem all_advance (h : feed.all = t :: u :: ts) : feed.advance.all = u :: ts := by
  obtain ⟨rest, final, last⟩ := feed
  cases rest <;> simp_all [all, advance]

theorem last_advance (h : feed.all = t :: ts) : feed.advance.last = t :=
  current_of_all h

/-- Only what is still to be read decides how the reading goes on. -/
theorem eq_of_all {other : Feed} (h : feed.all = other.all) :
    feed.rest = other.rest ∧ feed.final = other.final := by
  have := List.append_inj' h rfl
  simpa using this

end Feed

namespace Shape

theorem ofOpener?_opener (shape : Shape) : ofOpener? (String.ofList shape.opener) = some shape := by
  cases shape <;> decide

end Shape

namespace EdgeStyle

theorem ofArrow?_arrow (style : EdgeStyle) (head : Bool) :
    ofArrow? (String.ofList (style.arrow head)) = some (style, head) := by
  cases style <;> cases head <;> decide

theorem ofArrow?_closer (style : EdgeStyle) (head : Bool) :
    ofArrow? (String.ofList (style.closer head)) = some (style, head) := by
  cases style <;> cases head <;> decide

end EdgeStyle

namespace Direction

theorem ofName?_name (direction : Direction) : ofName? direction.name = some direction := by
  cases direction <;> decide

end Direction

namespace Feed

open Grammar
variable {feed : Feed} {t u : Token} {ts post : List Token}

/-- A bracket behind an id belongs to it. -/
def Detached (ts : List Token) (t : Token) : Prop :=
  (ts.getLastD default).kind = .identifier → t.kind ≠ .openBracket

theorem nodeRef_of_mention {ref : NodeRef} (rule : Mention ts ref) (h : feed.all = ts ++ t :: post)
    (follow : Detached ts t) :
    ∃ next, feed.nodeRef = .ok (ref, next) ∧ next.all = t :: post ∧ next.last = ts.getLastD default := by
  cases rule with
  | @bare id isId =>
    have behind := all_advance h
    refine ⟨feed.advance, ?_, behind, last_advance h⟩
    have other := follow isId
    simp [nodeRef, identifier, kind_of_all h, isId, kind_of_all behind, other, current_of_all h, bind,
      Except.bind, spanFrom, last_advance h, Token.range, pure, Except.pure]
  | @declared id opener label closer shape isId opens isLabel closes =>
    have behindId := all_advance h
    have behindOpener := all_advance behindId
    have behindLabel := all_advance behindOpener
    refine ⟨feed.advance.advance.advance.advance, ?_, all_advance behindLabel, last_advance behindLabel⟩
    simp [nodeRef, identifier, kind_of_all h, isId, kind_of_all behindId, opens.1, opens.2,
      current_of_all h, current_of_all behindId, current_of_all behindOpener, isLabel.2, bind, Except.bind,
      Shape.ofOpener?_opener, spanFrom, last_advance behindLabel, Token.range, pure, Except.pure]

theorem link_of_joint {link : Link} (rule : Joint ts link) (h : feed.all = ts ++ t :: post)
    (follow : ts.length = 1 → t.kind ≠ .pipe) :
    ∃ next, feed.link = .ok (link, next) ∧ next.all = t :: post ∧ next.last = ts.getLastD default := by
  cases rule with
  | @plain arrow style head isArrow =>
    have behind := all_advance h
    have other := follow rfl
    refine ⟨feed.advance, ?_, behind, last_advance h⟩
    simp [link, linkParts, kind_of_all h, isArrow.1, kind_of_all behind, other, current_of_all h,
      isArrow.2, EdgeStyle.ofArrow?_arrow, spanFrom, last_advance h, Token.range]
  | @barred arrow bar label close style head isArrow isBar isLabel isClose =>
    have behindArrow := all_advance h
    have behindBar := all_advance behindArrow
    have behindLabel := all_advance behindBar
    refine ⟨feed.advance.advance.advance.advance, ?_, all_advance behindLabel, last_advance behindLabel⟩
    simp [link, linkParts, kind_of_all h, isArrow.1, kind_of_all behindArrow, isBar, current_of_all h,
      current_of_all behindBar, isLabel.2, isArrow.2, EdgeStyle.ofArrow?_arrow, spanFrom,
      last_advance behindLabel, Token.range]
  | @inner opener label arrow style head opens isLabel isArrow =>
    have behindOpener := all_advance h
    have behindLabel := all_advance behindOpener
    refine ⟨feed.advance.advance.advance, ?_, all_advance behindLabel, last_advance behindLabel⟩
    simp [link, linkParts, kind_of_all h, opens.1, current_of_all behindOpener, isLabel.2,
      current_of_all h, current_of_all behindLabel, isArrow.2, EdgeStyle.ofArrow?_closer, spanFrom,
      last_advance behindLabel, Token.range]

theorem mention_head {ref : NodeRef} (rule : Mention ts ref) :
    ∃ id more, ts = id :: more ∧ id.kind = .identifier := by
  cases rule with
  | bare isId => exact ⟨_, _, rfl, isId⟩
  | declared isId => exact ⟨_, _, rfl, isId⟩

theorem joint_head {link : Link} (rule : Joint ts link) :
    ∃ first more, ts = first :: more ∧ (first.kind = .arrow ∨ first.kind = .linkStart) := by
  cases rule with
  | plain isArrow => exact ⟨_, _, rfl, .inl isArrow.1⟩
  | barred isArrow => exact ⟨_, _, rfl, .inl isArrow.1⟩
  | inner opens => exact ⟨_, _, rfl, .inr opens.1⟩

theorem joints_head {more : List (Link × NodeRef)} (rule : Joints ts more) :
    ts = [] ∧ more = [] ∨
      ∃ first rest, ts = first :: rest ∧ (first.kind = .arrow ∨ first.kind = .linkStart) := by
  cases rule with
  | nil => exact .inl ⟨rfl, rfl⟩
  | cons joint _ _ =>
    obtain ⟨first, rest, rfl, opens⟩ := joint_head joint
    exact .inr ⟨first, _, rfl, opens⟩

theorem detached_of_append {us : List Token} (follow : Detached (ts ++ us) t) : Detached us t := by
  intro isId
  cases us with
  | nil => cases isId
  | cons u us =>
    apply follow
    rwa [getLastD_append, List.getLastD_cons, ← List.getLastD_cons (a := default)]

/-- The token behind a node is the first of the links or the one that ends them. -/
theorem detached_joints {us : List Token} {more : List (Link × NodeRef)} (rule : Joints us more)
    (follow : Detached (ts ++ us) t) (post : List Token) :
    ∃ u rest, us ++ t :: post = u :: rest ∧ Detached ts u := by
  obtain ⟨rfl, rfl⟩ | ⟨u, rest, rfl, isLink⟩ := joints_head rule
  · exact ⟨t, post, rfl, by simpa using follow⟩
  · exact ⟨u, _, rfl, fun _ => by rcases isLink with isLink | isLink <;> simp [isLink]⟩

theorem links_of_joints {more : List (Link × NodeRef)} (rule : Joints ts more)
    (h : feed.all = ts ++ t :: post) (stop : t.kind ≠ .arrow ∧ t.kind ≠ .linkStart)
    (follow : Detached ts t) :
    ∃ next, feed.links = .ok (more, next) ∧ next.all = t :: post ∧
      next.last = ts.getLastD feed.last := by
  induction rule generalizing feed with
  | nil =>
    refine ⟨feed, ?_, h, rfl⟩
    rw [links, dif_neg]
    simp [atLink, kind_of_all h, stop]
  | @cons ts us vs link ref more joint mention joints ih =>
    obtain ⟨first, rest, rfl, opens⟩ := joint_head joint
    obtain ⟨id, rest', rfl, isId⟩ := mention_head mention
    obtain ⟨u, post', eq, other⟩ := detached_joints joints (detached_of_append follow) post
    obtain ⟨behindLink, readLink, allLink, lastLink⟩ := link_of_joint joint
      (by simpa using h) (fun _ => by rw [isId]; decide)
    obtain ⟨behindNode, readNode, allNode, lastNode⟩ := nodeRef_of_mention mention
      (by simpa [eq] using allLink) other
    obtain ⟨next, readMore, allNext, lastNext⟩ := ih (by simpa [eq] using allNode)
      (detached_of_append (detached_of_append follow))
    refine ⟨next, ?_, allNext, ?_⟩
    · rw [links, dif_pos (by
        rcases opens with opens | opens <;> simp [atLink, kind_of_all h, opens])]
      split
      · simp_all
      · split
        · simp_all
        · simp_all [bind, Except.bind, pure, Except.pure]
    · rw [lastNext, lastNode, getLastD_append, getLastD_append]
      simp only [List.getLastD_cons]

/-- What ends a statement, and what is left to be read behind it: a line end is read, the end of the
input stays. -/
inductive Ends : List Token → List Token → Prop where
  | line {line next : Token} {rest : List Token} : line.kind = .newline →
      Ends (line :: next :: rest) (next :: rest)
  | input {final : Token} {rest : List Token} : final.kind = .endOfInput → Ends (final :: rest) (final :: rest)

theorem endStatement_of_ends {rest : List Token} (ends : Ends feed.all rest) :
    ∃ next, feed.endStatement = .ok next ∧ next.all = rest := by
  generalize h : feed.all = all at ends
  cases ends with
  | line isLine => exact ⟨feed.advance, by simp [endStatement, kind_of_all h, isLine], all_advance h⟩
  | input isFinal => exact ⟨feed, by simp [endStatement, kind_of_all h, isFinal], h⟩

theorem ends_head {tail rest : List Token} (ends : Ends tail rest) :
    ∃ t post, tail = t :: post ∧ (t.kind = .newline ∨ t.kind = .endOfInput) := by
  cases ends with
  | line isLine => exact ⟨_, _, rfl, .inl isLine⟩
  | input isFinal => exact ⟨_, _, rfl, .inr isFinal⟩

theorem chain_head {statement : Statement} (rule : Grammar.Chain ts statement) :
    ∃ id more, ts = id :: more ∧ id.kind = .identifier := by
  cases rule with
  | node mention => exact mention_head mention
  | edges mention _ _ =>
    obtain ⟨id, more, rfl, isId⟩ := mention_head mention
    exact ⟨id, _, rfl, isId⟩

theorem chain_of_rule {statement : Statement} {tail rest : List Token}
    (rule : Grammar.Chain ts statement) (h : feed.all = ts ++ tail) (ends : Ends tail rest) :
    ∃ next, feed.chain = .ok (statement, next) ∧ next.all = rest := by
  obtain ⟨t, post, rfl, isEnd⟩ := ends_head ends
  have stop : t.kind ≠ .arrow ∧ t.kind ≠ .linkStart := by
    rcases isEnd with isEnd | isEnd <;> simp [isEnd]
  have follow (us : List Token) : Detached us t :=
    fun _ => by rcases isEnd with isEnd | isEnd <;> simp [isEnd]
  cases rule with
  | @node ts ref mention =>
    obtain ⟨behind, read, allBehind, lastBehind⟩ := nodeRef_of_mention mention h (follow _)
    obtain ⟨links, readLinks, allLinks, lastLinks⟩ :=
      links_of_joints .nil (show behind.all = [] ++ t :: post by simpa using allBehind) stop (follow _)
    obtain ⟨next, readEnd, allNext⟩ := endStatement_of_ends
      (show Ends links.all rest by rwa [allLinks])
    obtain ⟨id, more, rfl, isId⟩ := mention_head mention
    refine ⟨next, ?_, allNext⟩
    simp [chain, read, readLinks, readEnd, bind, Except.bind, pure, Except.pure, spanFrom, lastLinks,
      lastBehind, current_of_all h, Token.range]
  | @edges ts us ref more mention joints some =>
    obtain ⟨u, post', eq, other⟩ := detached_joints joints (follow (ts ++ us)) post
    obtain ⟨behind, read, allBehind, lastBehind⟩ := nodeRef_of_mention mention
      (by simpa [eq] using h) other
    obtain ⟨links, readLinks, allLinks, lastLinks⟩ :=
      links_of_joints joints (show behind.all = us ++ t :: post by rw [allBehind, eq]) stop (follow _)
    obtain ⟨next, readEnd, allNext⟩ := endStatement_of_ends
      (show Ends links.all rest by rwa [allLinks])
    obtain ⟨id, rest', rfl, isId⟩ := mention_head mention
    have range : links.spanFrom feed.current = Token.range (id :: rest' ++ us) := by
      rw [spanFrom, current_of_all h, lastLinks, lastBehind, ← getLastD_append]
      rfl
    refine ⟨next, ?_, allNext⟩
    simp [chain, read, readLinks, readEnd, bind, Except.bind, pure, Except.pure, range, some]

theorem header_head {head : Head} (rule : Header ts head) :
    ∃ more, ts = head.opener :: more ∧ head.opener.kind = .subgraph := by
  cases rule with
  | untitled opens => exact ⟨_, rfl, opens⟩
  | titled opens => exact ⟨_, rfl, opens⟩

theorem head_of_header {head : Head} {tail rest : List Token} (rule : Header ts head)
    (h : feed.all = ts ++ tail) (ends : Ends tail rest) :
    ∃ next, feed.head = .ok (head, next) ∧ next.all = rest := by
  obtain ⟨t, post, rfl, isEnd⟩ := ends_head ends
  have other : t.kind ≠ .openBracket := by rcases isEnd with isEnd | isEnd <;> simp [isEnd]
  cases rule with
  | @untitled opener id opens isId =>
    have behindOpener := all_advance h
    have behindId := all_advance behindOpener
    obtain ⟨next, readEnd, allNext⟩ :=
      endStatement_of_ends (show Ends feed.advance.advance.all rest by rwa [behindId])
    refine ⟨next, ?_, allNext⟩
    simp [Feed.head, identifier, kind_of_all behindOpener, isId, kind_of_all behindId, other, readEnd,
      current_of_all h, current_of_all behindOpener, bind, Except.bind, pure, Except.pure]
  | @titled opener id left title right opens isId isLeft isTitle isRight =>
    have behindOpener := all_advance h
    have behindId := all_advance behindOpener
    have behindLeft := all_advance behindId
    have behindTitle := all_advance behindLeft
    have behindRight := all_advance behindTitle
    obtain ⟨next, readEnd, allNext⟩ := endStatement_of_ends
      (show Ends feed.advance.advance.advance.advance.advance.all rest by rwa [behindRight])
    have bracket : left.text = "[" := isLeft.2
    refine ⟨next, ?_, allNext⟩
    simp [Feed.head, identifier, kind_of_all behindOpener, isId, kind_of_all behindId, isLeft.1, readEnd,
      current_of_all behindId, bracket, current_of_all behindLeft,
      current_of_all h, current_of_all behindOpener, bind, Except.bind, pure, Except.pure]

theorem statements_congr {other : Feed} (h : feed.all = other.all) (blocks : List Block)
    (done : List Statement) : feed.statements blocks done = other.statements blocks done := by
  obtain ⟨rest, final, last⟩ := feed
  obtain ⟨rest', final', last'⟩ := other
  obtain ⟨rfl, rfl⟩ := eq_of_all h
  rw [statements.eq_def, statements.eq_def blocks done ⟨rest, final, last'⟩]
  rfl

theorem skipNewlines_of_all (h : feed.all = t :: ts) (other : t.kind ≠ .newline) :
    feed.skipNewlines = feed := by
  obtain ⟨rest, final, last⟩ := feed
  cases rest with
  | nil => rfl
  | cons first rest =>
    obtain ⟨rfl, -⟩ : first = t ∧ _ := by simpa [all] using h
    simp [skipNewlines, other]

variable {blocks : List Block} {done : List Statement}

theorem statements_newline {next : Feed} (h : feed.all = t :: next.all) (isLine : t.kind = .newline) :
    feed.statements blocks done = next.statements blocks done := by
  obtain ⟨rest, final, last⟩ := feed
  cases rest with
  | nil => simp [all] at h
  | cons first rest =>
    obtain ⟨rfl, same⟩ : first = t ∧ rest ++ [final] = next.all := by simpa [all] using h
    have skip : skipNewlines ⟨first :: rest, final, last⟩ = skipNewlines ⟨rest, final, last⟩ := by
      simp [skipNewlines, isLine]
    rw [statements_congr (show next.all = all ⟨rest, final, last⟩ from same.symm), statements.eq_def,
      statements.eq_def blocks done ⟨rest, final, last⟩, skip]

/-- One round of the loop over a token that ends no line. -/
theorem statements_step (h : feed.all = t :: ts) (other : t.kind ≠ .newline) :
    feed.statements blocks done =
      match t.kind, blocks with
      | .endOfInput, [] => .ok done.reverse
      | .endOfInput, block :: _ => .error (.refused (.unclosedSubgraph block.head.id) block.head.opener)
      | .close, [] => feed.refuse .strayEnd
      | .close, ⟨head, before⟩ :: outer => feed.advance.endStatement.bind fun behind =>
        behind.statements outer
          (.subgraph head.id head.title done.reverse (feed.advance.spanFrom head.opener) :: before)
      | .subgraph, _ => feed.head.bind fun (head, behind) => behind.statements (⟨head, done⟩ :: blocks) []
      | .identifier, _ => feed.chain.bind fun (statement, behind) =>
        behind.statements blocks (statement :: done)
      | .graph, _ => feed.refuse .secondDeclaration
      | .flowchart, _ => feed.refuse .secondDeclaration
      | _, _ => feed.refuse .noStatement := by
  rw [statements.eq_def, skipNewlines_of_all h other, ← kind_of_all h]
  dsimp only
  generalize feed.kind = kind
  cases kind <;> cases blocks <;> try rfl
  all_goals
    dsimp only
    split <;> simp only [*, Except.bind]

theorem statements_chain {next : Feed} {statement : Statement} (h : feed.all = t :: ts)
    (isId : t.kind = .identifier) (read : feed.chain = .ok (statement, next)) :
    feed.statements blocks done = next.statements blocks (statement :: done) := by
  rw [statements_step h (by simp [isId])]
  simp [isId, read, Except.bind]

theorem statements_head {next : Feed} {head : Head} (h : feed.all = t :: ts)
    (opens : t.kind = .subgraph) (read : feed.head = .ok (head, next)) :
    feed.statements blocks done = next.statements (⟨head, done⟩ :: blocks) [] := by
  rw [statements_step h (by simp [opens])]
  simp [opens, read, Except.bind]

theorem statements_close {block : Block} {rest : List Token} {next : Feed} (h : feed.all = t :: u :: ts)
    (closes : t.kind = .close) (ends : Ends (u :: ts) rest) (all : next.all = rest) :
    feed.statements (block :: blocks) done = next.statements blocks
      (.subgraph block.head.id block.head.title done.reverse ⟨block.head.opener.position, t.stop⟩ ::
        block.before) := by
  have behind := all_advance h
  obtain ⟨end_, read, allEnd⟩ := endStatement_of_ends
      (show Ends feed.advance.all rest by rwa [behind])
  rw [statements_step h (by simp [closes])]
  simp only [closes, read, Except.bind, spanFrom, last_advance h]
  exact statements_congr (allEnd.trans all.symm) _ _

theorem exists_all (first : Token) (rest : List Token) : ∃ feed : Feed, feed.all = first :: rest :=
  ⟨⟨(first :: rest).dropLast, (first :: rest).getLast (List.cons_ne_nil _ _), default⟩,
    List.dropLast_concat_getLast _⟩

/-- The loop takes up the statement and goes on behind its end. -/
def SentenceRuns (ts : List Token) (statement : Statement) : Prop :=
  ∀ (feed next : Feed) (tail : List Token) (blocks : List Block) (done : List Statement),
    feed.all = ts ++ tail → Ends tail next.all →
    feed.statements blocks done = next.statements blocks (statement :: done)

/-- The loop takes up all statements of the lines. -/
def LinesRun (ts : List Token) (body : List Statement) : Prop :=
  ∀ (feed next : Feed) (blocks : List Block) (done : List Statement), feed.all = ts ++ next.all →
    feed.statements blocks done = next.statements blocks (body.reverse ++ done)

theorem chain_runs {statement : Statement} (rule : Grammar.Chain ts statement) :
    SentenceRuns ts statement := by
  intro feed next tail blocks done h ends
  obtain ⟨behind, read, allBehind⟩ := chain_of_rule rule h ends
  obtain ⟨id, more, rfl, isId⟩ := chain_head rule
  rw [statements_chain h isId read]
  exact statements_congr allBehind _ _

theorem block_runs {hs : List Token} {line close : Token} {head : Head} {body : List Statement}
    (header : Header hs head) (isLine : line.kind = .newline) (inner : LinesRun ts body)
    (closes : close.kind = .close) :
    SentenceRuns (hs ++ line :: (ts ++ [close]))
      (.subgraph head.id head.title body (Token.range (hs ++ line :: (ts ++ [close])))) := by
  intro feed next tail blocks done h ends
  obtain ⟨more, rfl, opens⟩ := header_head header
  have split : feed.all = head.opener :: more ++ line :: (ts ++ close :: tail) := by simpa using h
  have endsHead : Ends (line :: (ts ++ close :: tail)) (ts ++ close :: tail) := by
    cases ts <;> exact .line isLine
  obtain ⟨inside, read, allInside⟩ := head_of_header header split endsHead
  obtain ⟨t, post, rfl, isEnd⟩ := ends_head ends
  obtain ⟨atClose, allClose⟩ := exists_all close (t :: post)
  have range : Token.range (head.opener :: more ++ line :: (ts ++ [close])) =
      ⟨head.opener.position, close.stop⟩ := by
    rw [Token.range, getLastD_append, List.getLastD_cons, getLastD_append]
    rfl
  rw [statements_head h opens read, inner inside atClose _ _ (by rw [allInside, allClose]),
    statements_close allClose closes ends rfl, range]
  simp

theorem blank_runs {line : Token} {body : List Statement} (front : LinesRun ts body)
    (isLine : line.kind = .newline) : LinesRun (ts ++ [line]) body := by
  intro feed next blocks done h
  obtain ⟨atLine, allLine⟩ := exists_all line next.all
  rw [front feed atLine _ _ (by simpa [allLine] using h), statements_newline allLine isLine]

theorem line_runs {us : List Token} {line : Token} {body : List Statement} {statement : Statement}
    (front : LinesRun ts body) (last : SentenceRuns us statement) (isLine : line.kind = .newline) :
    LinesRun (ts ++ (us ++ [line])) (body ++ [statement]) := by
  intro feed next blocks done h
  obtain ⟨first, rest, eq⟩ : ∃ first rest, us ++ line :: next.all = first :: rest := by
    cases us <;> exact ⟨_, _, rfl⟩
  obtain ⟨atSentence, allSentence⟩ := exists_all first rest
  have ends : Ends (line :: next.all) next.all := by
    cases all : next.all with
    | nil => simp [Feed.all] at all
    | cons u more => exact .line isLine
  rw [front feed atSentence _ _ (by simpa [allSentence, ← eq] using h),
    last atSentence next _ _ _ (allSentence.trans eq.symm) ends]
  simp

theorem nil_runs : LinesRun [] [] :=
  fun _ _ _ _ h => statements_congr h _ _

theorem sentence_runs {statement : Statement} (rule : Sentence ts statement) :
    SentenceRuns ts statement :=
  (sentence_lines_induction chain_runs block_runs nil_runs blank_runs line_runs).1 ts statement rule

theorem declaration_of_rule {direction : Direction} {tail rest : List Token}
    (rule : Declaration ts direction) (h : feed.all = ts ++ tail) (ends : Ends tail rest) :
    ∃ next, feed.declaration = .ok ((direction, Token.range ts), next) ∧ next.all = rest := by
  obtain ⟨t, post, rfl, isEnd⟩ := ends_head ends
  have other : t.kind ≠ .identifier := by rcases isEnd with isEnd | isEnd <;> simp [isEnd]
  cases rule with
  | @plain word isWord =>
    have behind := all_advance h
    obtain ⟨next, readEnd, allNext⟩ := endStatement_of_ends
      (show Ends feed.advance.all rest by rwa [behind])
    refine ⟨next, ?_, allNext⟩
    rcases isWord with ⟨isKind, isText⟩ | ⟨isKind, isText⟩ <;>
    simp [declaration, current_of_all h, isKind, isText, kind_of_all behind, other, readEnd, bind,
      Except.bind, pure, Except.pure, spanFrom, last_advance h, Token.range]
  | @directed word name direction isWord isName isText' =>
    have behind := all_advance h
    have behindName := all_advance behind
    obtain ⟨next, readEnd, allNext⟩ :=
      endStatement_of_ends (show Ends feed.advance.advance.all rest by rwa [behindName])
    refine ⟨next, ?_, allNext⟩
    rcases isWord with ⟨isKind, isText⟩ | ⟨isKind, isText⟩ <;>
    simp [declaration, current_of_all h, isKind, isText, kind_of_all behind, isName, readEnd, bind,
      Except.bind, pure, Except.pure, spanFrom, last_advance behind, Token.range,
      current_of_all behind, isText', Direction.ofName?_name]

theorem declaration_congr {other : Feed} (h : feed.all = other.all) :
    feed.declaration = other.declaration := by
  obtain ⟨rest, final, last⟩ := feed
  obtain ⟨rest', final', last'⟩ := other
  obtain ⟨rfl, rfl⟩ := eq_of_all h
  rfl

theorem all_skipNewlines {blanks : List Token} (h : feed.all = blanks ++ t :: ts)
    (areBlank : ∀ blank ∈ blanks, blank.kind = .newline) (other : t.kind ≠ .newline) :
    feed.skipNewlines.all = t :: ts := by
  induction blanks generalizing feed with
  | nil => rw [skipNewlines_of_all h other]; exact h
  | cons blank blanks ih =>
    obtain ⟨rest, final, last⟩ := feed
    cases rest with
    | nil => simp [all] at h
    | cons first rest =>
      obtain ⟨rfl, same⟩ : first = blank ∧ rest ++ [final] = blanks ++ t :: ts := by
        simpa [all] using h
      have skip : skipNewlines ⟨first :: rest, final, last⟩ = skipNewlines ⟨rest, final, last⟩ := by
        simp [skipNewlines, areBlank]
      rw [skip]
      exact ih same fun blank mem => areBlank blank (List.mem_cons_of_mem _ mem)

/-- What is made of the tokens of a diagram: its declaration is read, and then the loop runs. -/
theorem ofTokens_eq (feed : Feed) :
    Diagram.ofTokens feed.all = feed.skipNewlines.declaration.bind fun ((direction, span), behind) =>
      (behind.statements [] []).map fun body => ⟨direction, span, body⟩ := by
  have same : Feed.skipNewlines ⟨feed.rest, feed.final, feed.all.headD feed.final⟩ =
      { feed.skipNewlines with last := feed.all.headD feed.final } := rfl
  have read : Feed.declaration (Feed.skipNewlines ⟨feed.rest, feed.final, feed.all.headD feed.final⟩) =
      feed.skipNewlines.declaration := declaration_congr rfl
  simp only [Diagram.ofTokens, all, List.getLast?_append, List.getLast?_singleton, Option.some_or,
    List.dropLast_concat]
  simp only [all] at read
  rw [read]
  cases feed.skipNewlines.declaration with
  | error e => rfl
  | ok result =>
    obtain ⟨⟨direction, span⟩, behind⟩ := result
    cases h : behind.statements [] [] <;> simp [bind, Except.bind, h, Except.map, pure, Except.pure]

/-- The run over the beginning of a diagram, and what is left to do. -/
def Resumes (direction : Direction) (span : Span) (tokens : List Token) (blocks : List Block)
    (done : List Statement) (feed : Feed) : Prop :=
  Diagram.ofTokens tokens = (feed.statements blocks done).map fun body => ⟨direction, span, body⟩

variable {direction : Direction} {span : Span}

theorem resumes_of_declaration {blanks : List Token} {tail : List Token} {next : Feed}
    (areBlank : ∀ blank ∈ blanks, blank.kind = .newline) (rule : Declaration ts direction)
    (ends : Ends tail next.all) :
    Resumes direction (Token.range ts) (blanks ++ (ts ++ tail)) [] [] next := by
  obtain ⟨word, more, rfl, other⟩ : ∃ word more, ts = word :: more ∧ word.kind ≠ .newline := by
    cases rule with
    | plain isWord => exact ⟨_, _, rfl, by rcases isWord with isWord | isWord <;> simp [isWord.1]⟩
    | directed isWord => exact ⟨_, _, rfl, by rcases isWord with isWord | isWord <;> simp [isWord.1]⟩
  obtain ⟨first, rest, eq⟩ : ∃ first rest, blanks ++ (word :: more ++ tail) = first :: rest := by
    cases blanks <;> exact ⟨_, _, rfl⟩
  obtain ⟨feed, all⟩ := exists_all first rest
  obtain ⟨behind, read, allBehind⟩ := declaration_of_rule rule
    (all_skipNewlines (by rw [all, ← eq]; rfl) areBlank other) ends
  rw [Resumes, eq, ← all, ofTokens_eq, read]
  simp only [Except.bind]
  rw [statements_congr allBehind]

theorem resumes_of_opened {blocks : List Block} {done : List Statement}
    (opened : Opened direction span ts blocks done) (feed : Feed) :
    Resumes direction span (ts ++ feed.all) blocks done feed := by
  have ends {line : Token} (isLine : line.kind = .newline) (next : Feed) :
      Ends (line :: next.all) next.all := by
    cases all : next.all with
    | nil => simp [Feed.all] at all
    | cons u more => exact .line isLine
  have before (us : List Token) (line : Token) (next : Feed) :
      ∃ feed : Feed, feed.all = us ++ line :: next.all := by
    cases us with
    | nil => exact exists_all _ _
    | cons u us => exact exists_all u (us ++ line :: next.all)
  induction opened generalizing feed with
  | @declared blanks ts line areBlank rule isSpan isLine =>
    subst isSpan
    simpa using resumes_of_declaration areBlank rule (ends isLine feed)
  | @blank ts line blocks done _ isLine ih =>
    obtain ⟨atLine, all⟩ := before [] line feed
    have resumes := ih atLine
    rw [Resumes, statements_newline all isLine, all] at resumes
    simpa [Resumes] using resumes
  | @sentence ts us line blocks done statement _ sentence isLine ih =>
    obtain ⟨atSentence, all⟩ := before us line feed
    have resumes := ih atSentence
    rw [Resumes, sentence_runs sentence _ _ _ _ _ all (ends isLine feed), all] at resumes
    simpa [Resumes] using resumes
  | @header ts hs line blocks done head _ header isLine ih =>
    obtain ⟨atHead, all⟩ := before hs line feed
    obtain ⟨behind, read, allBehind⟩ := head_of_header header all (ends isLine feed)
    obtain ⟨more, rfl, opens⟩ := header_head header
    have resumes := ih atHead
    rw [Resumes, statements_head all opens read, statements_congr allBehind, all] at resumes
    simpa [Resumes] using resumes

/-- The end of the input stands for a line end. -/
theorem resumes_of_ended {line : Token} {blocks : List Block} {done : List Statement} {feed : Feed}
    {final : Token} {post : List Token} (opened : Opened direction span (ts ++ [line]) blocks done)
    (all : feed.all = final :: post) (isFinal : final.kind = .endOfInput) :
    Resumes direction span (ts ++ final :: post) blocks done feed := by
  have ends : Ends (final :: post) feed.all := all ▸ .input isFinal
  have before (us : List Token) : ∃ feed : Feed, feed.all = us ++ final :: post := by
    cases us with
    | nil => exact exists_all _ _
    | cons u us => exact exists_all u (us ++ final :: post)
  generalize eq : ts ++ [line] = whole at opened
  cases opened with
  | @declared blanks ds last areBlank rule isSpan isLine =>
    obtain ⟨rfl, -⟩ := List.append_inj' (eq.trans (List.append_assoc ..).symm) rfl
    subst isSpan
    simpa using resumes_of_declaration areBlank rule ends
  | @blank us last blocks done opened isLine =>
    obtain ⟨rfl, -⟩ := List.append_inj' eq rfl
    exact all ▸ resumes_of_opened opened feed
  | @sentence us vs last blocks done statement opened sentence isLine =>
    obtain ⟨rfl, -⟩ := List.append_inj' (eq.trans (List.append_assoc ..).symm) rfl
    obtain ⟨atSentence, allSentence⟩ := before vs
    have resumes := resumes_of_opened opened atSentence
    rw [Resumes, sentence_runs sentence _ _ _ _ _ allSentence ends, allSentence] at resumes
    simpa [Resumes] using resumes
  | @header us hs last blocks done head opened header isLine =>
    obtain ⟨rfl, -⟩ := List.append_inj' (eq.trans (List.append_assoc ..).symm) rfl
    obtain ⟨atHead, allHead⟩ := before hs
    obtain ⟨behind, read, allBehind⟩ := head_of_header header allHead ends
    obtain ⟨more, rfl, opens⟩ := header_head header
    have resumes := resumes_of_opened opened atHead
    rw [Resumes, statements_head allHead opens read, statements_congr allBehind, allHead] at resumes
    simpa [Resumes] using resumes

end Feed

namespace Diagram

open Grammar Feed

/-- Whatever the grammar derives is read, as the tree of the derivation. -/
theorem ofTokens_of_document {tokens : List Token} {diagram : Diagram}
    (rule : Document tokens diagram) : ofTokens tokens = .ok diagram := by
  obtain ⟨opened, isLine, isFinal⟩ := rule
  rename_i ts line final direction span body
  obtain ⟨feed, all⟩ := exists_all final []
  have resumes := resumes_of_ended opened all isFinal
  rw [Resumes, statements_step all (by simp [isFinal])] at resumes
  simpa [isFinal, Except.map] using resumes

/-- Where the end of the input leaves a block open, the keyword of the innermost block is refused. -/
theorem ofTokens_of_unclosed {tokens : List Token} {keyword final : Token}
    (unclosed : Unclosed tokens keyword) (isFinal : final.kind = .endOfInput) (post : List Token) :
    ∃ fault, ofTokens (tokens ++ final :: post) = .error (.refused fault keyword) := by
  obtain ⟨direction, span, line, block, blocks, done, isLine, rfl, opened⟩ := unclosed
  obtain ⟨feed, all⟩ := exists_all final post
  have resumes := resumes_of_ended opened all isFinal
  rw [Resumes, statements_step all (by simp [isFinal])] at resumes
  exact ⟨.unclosedSubgraph block.head.id, by simpa [isFinal, Except.map] using resumes⟩

section
variable {source : String} {tokens : List Token}

theorem ofSource_of_scan_error {error : LexError} (scanned : Token.scan source = .error error) :
    ofSource source = .error error.failure := by
  rw [ofSource, scanned]
  rfl

theorem ofSource_of_parse_error {error : ParseError} (scanned : Token.scan source = .ok tokens)
    (parsed : ofTokens tokens = .error error) : ofSource source = .error error.failure := by
  rw [ofSource, scanned]
  show Except.mapError ParseError.failure (ofTokens tokens) = _
  rw [parsed]
  rfl

theorem ofSource_of_ofTokens {diagram : Diagram} (scanned : Token.scan source = .ok tokens)
    (parsed : ofTokens tokens = .ok diagram) : ofSource source = .ok diagram := by
  rw [ofSource, scanned]
  show Except.mapError ParseError.failure (ofTokens tokens) = _
  rw [parsed]
  rfl

end

end Diagram
end Flowchart
