import Flowchart.Proofs.Diagram.Acceptance

/-!
Where a reading ends. On the tokens of a source each reader either reads a phrase of the grammar or
refuses a token, and the tokens in front of the refused one begin a phrase. What is refused does not
depend on the tokens behind it, so nothing that begins with the refused token and those in front of it is
read.
-/
namespace Flowchart

namespace Feed

open Grammar

/-- The reader refuses `t` behind `pre`, whatever comes next. -/
def Refuses {α : Type} (read : Feed → Except ParseError α) (pre : List Token) (t : Token) : Prop :=
  ∀ (feed : Feed) (post : List Token), feed.all = pre ++ t :: post →
    ∃ fault, read feed = .error (.refused fault t)

/-- The reader reads `ts` in front of `u`, whatever comes next. -/
def Accepts {α : Type} (read : Feed → Except ParseError (α × Feed)) (ts : List Token) (u : Token) : Prop :=
  ∀ (feed : Feed) (rest : List Token), feed.all = ts ++ u :: rest →
    ∃ tree behind, read feed = .ok (tree, behind) ∧ behind.all = u :: rest

/-- The reader finds a phrase at the start of the tokens, or refuses a token where a phrase has begun. -/
inductive Verdict {α β : Type} (rule : List Token → α → Prop) (follow : List Token → Token → Prop)
    (read : Feed → Except ParseError β) (tokens : List Token) : Prop where
  | accepted (ts : List Token) {post : List Token} {t : Token} {tree : α} : tokens = ts ++ t :: post →
      rule ts tree → follow ts t → Token.Stream (t :: post) → Verdict rule follow read tokens
  | refused (pre more : List Token) {post : List Token} {t : Token} {tree : α} : tokens = pre ++ t :: post →
      rule (pre ++ more) tree → Refuses read pre t → Verdict rule follow read tokens

variable {t u : Token} {pre post ts us : List Token}

/-- The first of some tokens stays the first when those behind `t` are exchanged. -/
theorem head_append (h : pre ++ t :: post = u :: us) (other : List Token) :
    ∃ rest, pre ++ t :: other = u :: rest := by
  cases pre with
  | nil => cases h; exact ⟨other, rfl⟩
  | cons first pre => cases h; exact ⟨_, rfl⟩

section

variable {α β : Type} {read : Feed → Except ParseError α}

theorem refuses_congr {other : Feed → Except ParseError α} (refuses : Refuses other pre t)
    (first : pre ++ t :: post = u :: us)
    (same : ∀ feed rest, feed.all = u :: rest → read feed = other feed) : Refuses read pre t := by
  intro feed post' h
  obtain ⟨rest, first⟩ := head_append first post'
  rw [same feed rest (h.trans first)]
  exact refuses feed post' h

theorem refuses_bind {next : Feed → α → Except ParseError β} (refuses : Refuses read pre t) :
    Refuses (fun feed => (read feed).bind (next feed)) pre t := by
  intro feed post h
  obtain ⟨fault, refused⟩ := refuses feed post h
  exact ⟨fault, by simp only [refused, Except.bind]⟩

/-- What is refused behind a phrase is refused behind the tokens of the phrase as well. -/
theorem refuses_behind {read : Feed → Except ParseError (α × Feed)}
    {next : Feed → α × Feed → Except ParseError β}
    (accepts : Accepts read ts u) (first : pre ++ t :: post = u :: us)
    (refuses : ∀ start tree, Refuses (fun feed => next start (tree, feed)) pre t) :
    Refuses (fun feed => (read feed).bind (next feed)) (ts ++ pre) t := by
  intro feed post' h
  obtain ⟨rest, first⟩ := head_append first post'
  obtain ⟨tree, behind, accepted, all⟩ := accepts feed rest (by rw [h, List.append_assoc, first])
  obtain ⟨fault, refused⟩ := refuses feed tree behind post' (all.trans first.symm)
  refine ⟨fault, ?_⟩
  simp only [accepted, Except.bind]
  exact refused

end

/-- A token that stands for a missing one. -/
def supply (kind : Token.Kind) : Token :=
  ⟨kind, "x", default⟩

theorem supply_kind (kind : Token.Kind) : (supply kind).kind = kind := rfl

theorem supply_label : (supply .label).IsLabel := ⟨rfl, by decide⟩

theorem refuse_eq {α : Type} {feed : Feed} (h : feed.all = t :: ts) (fault : ParseFault) :
    feed.refuse (α := α) fault = .error (.refused fault t) := by
  rw [refuse, current_of_all h]

/-- The end of a line or of the input. -/
def AtEnd (_ : List Token) (t : Token) : Prop :=
  t.kind = .newline ∨ t.kind = .endOfInput

theorem endStatement_refuses (other : ¬AtEnd us t) : Refuses endStatement [] t := by
  intro feed post h
  have h : feed.all = t :: post := h
  obtain ⟨notLine, notInput⟩ := not_or.1 other
  refine ⟨.expected "end of statement", ?_⟩
  simp [endStatement, kind_of_all h, notLine, notInput, refuse_eq h]

theorem nodeRef_verdict {tokens : List Token} (stream : Token.Stream tokens) :
    Verdict Mention Detached nodeRef tokens := by
  obtain ⟨t, ts, rfl⟩ := Token.stream_ne_nil stream
  by_cases isId : t.kind = .identifier
  · have behind := Token.stream_cases stream
    simp only [isId] at behind
    obtain ⟨u, us, rfl⟩ := Token.stream_ne_nil behind
    by_cases isOpener : u.kind = .openBracket
    · have bracketed := Token.stream_cases behind
      simp only [isOpener] at bracketed
      obtain ⟨label, closer, vs, shape, rfl, opens, isLabel, closes, stream⟩ := bracketed
      by_cases empty : label.text = ""
      · refine .refused [t, u] [supply .label, closer] rfl (.declared isId opens supply_label closes) ?_
        intro feed post h
        have behindId := all_advance h
        have behindOpener := all_advance behindId
        refine ⟨.emptyNodeLabel t.text, ?_⟩
        simp [nodeRef, identifier, kind_of_all h, isId, kind_of_all behindId, isOpener,
          current_of_all h, current_of_all behindOpener, empty, bind, Except.bind,
          refuse_eq behindOpener]
      · obtain ⟨v, vs, rfl⟩ := Token.stream_ne_nil stream
        refine .accepted [t, u, label, closer] rfl (.declared isId opens ⟨isLabel, empty⟩ closes)
          ?_ stream
        intro closerIsId
        simp [closes.1] at closerIsId
    · exact .accepted [t] rfl (.bare isId) (fun _ => isOpener) behind
  · refine .refused [] [supply .identifier] rfl (.bare (supply_kind .identifier)) ?_
    intro feed post h
    refine ⟨.expected "node id", ?_⟩
    have h : feed.all = t :: post := h
    simp [nodeRef, identifier, kind_of_all h, isId, bind, Except.bind, refuse_eq h]

/-- A bar behind a plain arrow belongs to it. -/
def Unbarred (ts : List Token) (t : Token) : Prop :=
  ts.length = 1 → t.kind ≠ .pipe

theorem link_verdict (opens : t.kind = .arrow ∨ t.kind = .linkStart) (stream : Token.Stream (t :: ts)) :
    Verdict Joint Unbarred link (t :: ts) := by
  rcases opens with isArrow | isStart
  · have behind := Token.stream_cases stream
    simp only [isArrow] at behind
    obtain ⟨⟨style, head, spells⟩, behind⟩ := behind
    obtain ⟨u, us, rfl⟩ := Token.stream_ne_nil behind
    by_cases isPipe : u.kind = .pipe
    · have barred := Token.stream_cases behind
      simp only [isPipe] at barred
      obtain ⟨label, close, vs, rfl, isLabel, isClose, stream⟩ := barred
      by_cases empty : label.text = ""
      · refine .refused [t, u] [supply .label, close] rfl (.barred spells isPipe supply_label isClose) ?_
        intro feed post h
        have behindArrow := all_advance h
        have behindBar := all_advance behindArrow
        refine ⟨.emptyEdgeLabel, ?_⟩
        simp [link, linkParts, kind_of_all h, isArrow, kind_of_all behindArrow, isPipe,
          current_of_all behindBar, empty, refuse_eq behindBar]
      · obtain ⟨v, vs, rfl⟩ := Token.stream_ne_nil stream
        exact .accepted [t, u, label, close] rfl (.barred spells isPipe ⟨isLabel, empty⟩ isClose)
          (fun single => by simp at single) stream
    · exact .accepted [t] rfl (.plain spells) (fun _ => isPipe) behind
  · have parts := Token.stream_cases stream
    simp only [isStart] at parts
    obtain ⟨label, arrow, us, style, head, rfl, spells, isLabel, isArrow, stream⟩ := parts
    by_cases empty : label.text = ""
    · refine .refused [t] [supply .label, arrow] rfl (.inner spells supply_label isArrow) ?_
      intro feed post h
      have behindStart := all_advance h
      refine ⟨.emptyEdgeLabel, ?_⟩
      simp [link, linkParts, kind_of_all h, isStart, current_of_all behindStart, empty,
        refuse_eq behindStart]
    · obtain ⟨v, vs, rfl⟩ := Token.stream_ne_nil stream
      exact .accepted [t, label, arrow] rfl (.inner spells ⟨isLabel, empty⟩ isArrow)
        (fun single => by simp at single) stream

theorem accepts_nodeRef {ref : NodeRef} (mention : Mention ts ref) (detached : Detached ts u) :
    Accepts nodeRef ts u := by
  intro feed rest h
  obtain ⟨behind, read, all, -⟩ := nodeRef_of_mention mention h detached
  exact ⟨ref, behind, read, all⟩

theorem accepts_link {link : Link} (joint : Joint ts link) (unbarred : Unbarred ts u) :
    Accepts Feed.link ts u := by
  intro feed rest h
  obtain ⟨behind, read, all, -⟩ := link_of_joint joint h unbarred
  exact ⟨link, behind, read, all⟩

def Stops (ts : List Token) (t : Token) : Prop :=
  (t.kind ≠ .arrow ∧ t.kind ≠ .linkStart) ∧ Detached ts t

theorem detached_append (front : us = [] → Detached ts t) (back : Detached us t) :
    Detached (ts ++ us) t := by
  cases us with
  | nil => simpa using front rfl
  | cons u us =>
    intro isId
    apply back
    rwa [getLastD_append, List.getLastD_cons, ← List.getLastD_cons (a := default)] at isId

/-- One round over a link and the node behind it. -/
theorem links_step {feed : Feed} (h : feed.all = t :: ts) (opens : t.kind = .arrow ∨ t.kind = .linkStart) :
    feed.links = feed.link.bind fun link => link.2.nodeRef.bind fun node =>
      node.2.links.bind fun more => .ok ((link.1, node.1) :: more.1, more.2) := by
  have atLink : feed.atLink = true := by
    rcases opens with opens | opens <;> simp [Feed.atLink, kind_of_all h, opens]
  rw [links, dif_pos atLink]
  split
  · simp [*, Except.bind]
  · rename_i link behindLink readLink
    split
    · simp [*, Except.bind]
    · rename_i node behindNode readNode
      cases readMore : behindNode.links <;>
        simp [readLink, readNode, readMore, bind, Except.bind, pure, Except.pure]

theorem links_verdict {tokens : List Token} (stream : Token.Stream tokens) :
    Verdict Joints Stops links tokens := by
  induction size : tokens.length using Nat.strongRecOn generalizing tokens with
  | ind n ih =>
    obtain ⟨t, ts, rfl⟩ := Token.stream_ne_nil stream
    by_cases opens : t.kind = .arrow ∨ t.kind = .linkStart
    · have step (feed : Feed) (rest : List Token) (h : feed.all = t :: rest) := links_step h opens
      cases link_verdict opens stream with
      | @refused pre more post u link eq rule refuses =>
        have whole := Joints.cons rule (.bare (supply_kind .identifier)) .nil
        exact .refused pre _ eq (List.append_assoc _ _ _ ▸ whole)
          (refuses_congr (refuses_bind refuses) eq.symm step)
      | @accepted us post u link eq joint unbarred stream =>
        have acceptsLink := accepts_link joint unbarred
        cases nodeRef_verdict stream with
        | @refused pre more post' v ref eq' rule refuses =>
          have whole := Joints.cons joint rule .nil
          have split : t :: ts = us ++ pre ++ v :: post' := by rw [eq, eq', List.append_assoc]
          refine .refused (us ++ pre) more split (by simpa using whole) (refuses_congr ?_ split.symm step)
          exact refuses_behind acceptsLink eq'.symm fun _ _ => refuses_bind refuses
        | @accepted vs post' v ref eq' mention detached stream =>
          have acceptsNode := accepts_nodeRef mention detached
          obtain ⟨id, vs, rfl, -⟩ := mention_head mention
          have shorter : (v :: post').length < n := by
            have first := congrArg List.length eq
            have second := congrArg List.length eq'
            simp only [List.length_append, List.length_cons] at *
            omega
          cases ih _ shorter stream rfl with
          | @refused pre more post'' w refs eq'' rule refuses =>
            have whole := Joints.cons joint mention rule
            have split : t :: ts = us ++ (id :: vs ++ pre) ++ w :: post'' := by
              rw [eq, eq', eq'', List.append_assoc, List.append_assoc]
            have behind : id :: vs ++ pre ++ w :: post'' = u :: post := by
              rw [eq', eq'', List.append_assoc]
            refine .refused _ more split (by simpa using whole) (refuses_congr ?_ split.symm step)
            exact refuses_behind acceptsLink behind fun _ _ =>
              refuses_behind acceptsNode eq''.symm fun _ _ => refuses_bind refuses
          | @accepted ws post'' w refs eq'' joints stops stream =>
            refine .accepted _ (by simp [eq, eq', eq'']) (.cons joint mention joints) ⟨stops.1, ?_⟩ stream
            refine detached_append (fun empty => by simp at empty) (detached_append ?_ stops.2)
            intro empty
            subst empty
            cases eq''
            exact detached
    · refine .accepted [] rfl .nil ⟨not_or.1 opens, ?_⟩ stream
      intro isId
      cases isId

theorem accepts_links {more : List (Link × NodeRef)} (joints : Joints ts more) (stops : Stops ts u) :
    Accepts links ts u := by
  intro feed rest h
  obtain ⟨behind, read, all, -⟩ := links_of_joints joints h stops.1 stops.2
  exact ⟨more, behind, read, all⟩

/-- A chain is a node, links, and the end of the statement. -/
theorem chain_eq :
    chain = fun feed => feed.nodeRef.bind fun node => node.2.links.bind fun more =>
      more.2.endStatement.bind fun behind =>
        .ok (if more.1.isEmpty then .node node.1 (more.2.spanFrom feed.current)
          else .chain (node.1 :: more.1.map Prod.snd) (more.1.map Prod.fst)
            (more.2.spanFrom feed.current), behind) := by
  funext feed
  simp only [chain, bind, Except.bind, pure, Except.pure]
  split
  · rfl
  · split
    · rfl
    · split
      · rfl
      · split <;> rfl

/-- A node with links behind it, of which there may be none. -/
theorem chain_of_parts {ref : NodeRef} {more : List (Link × NodeRef)} (mention : Mention ts ref)
    (joints : Joints us more) : ∃ statement, Chain (ts ++ us) statement := by
  cases joints with
  | nil => exact ⟨_, by simpa using Chain.node mention⟩
  | cons joint next joints => exact ⟨_, .edges mention (.cons joint next joints) (List.cons_ne_nil _ _)⟩

theorem chain_verdict {tokens : List Token} (stream : Token.Stream tokens) :
    Verdict Chain AtEnd chain tokens := by
  rw [chain_eq]
  cases nodeRef_verdict stream with
  | refused pre more eq rule refuses => exact .refused pre more eq (.node rule) (refuses_bind refuses)
  | @accepted us post u ref eq mention detached stream =>
    have acceptsNode := accepts_nodeRef mention detached
    cases links_verdict stream with
    | @refused pre more post' v refs eq' rule refuses =>
      obtain ⟨statement, whole⟩ := chain_of_parts mention rule
      have split : tokens = us ++ pre ++ v :: post' := by rw [eq, eq', List.append_assoc]
      refine .refused (us ++ pre) more split (List.append_assoc _ _ _ ▸ whole) ?_
      exact refuses_behind acceptsNode eq'.symm fun _ _ => refuses_bind refuses
    | @accepted vs post' v refs eq' joints stops stream =>
      obtain ⟨statement, whole⟩ := chain_of_parts mention joints
      have split : tokens = us ++ vs ++ v :: post' := by rw [eq, eq', List.append_assoc]
      by_cases isEnd : AtEnd (us ++ vs) v
      · exact .accepted (us ++ vs) split whole isEnd stream
      · refine .refused (us ++ vs) [] split (by simpa using whole) ?_
        rw [← List.append_nil (us ++ vs), List.append_assoc]
        have acceptsLinks := accepts_links joints stops
        refine refuses_behind acceptsNode (by rw [eq', List.append_nil]) fun start node => ?_
        refine refuses_behind acceptsLinks (show [] ++ v :: post' = _ from rfl) fun behind more => ?_
        exact refuses_bind (endStatement_refuses isEnd)

theorem header_verdict (opens : t.kind = .subgraph) (stream : Token.Stream (t :: ts)) :
    Verdict Header AtEnd head (t :: ts) := by
  have behind := Token.stream_cases stream
  simp only [opens] at behind
  obtain ⟨id, us, rfl⟩ := Token.stream_ne_nil behind
  by_cases isId : id.kind = .identifier
  · have behindId := Token.stream_cases behind
    simp only [isId] at behindId
    obtain ⟨u, us, rfl⟩ := Token.stream_ne_nil behindId
    by_cases isOpener : u.kind = .openBracket
    · have bracketed := Token.stream_cases behindId
      simp only [isOpener] at bracketed
      obtain ⟨title, right, vs, shape, rfl, isLeft, isTitle, isRight, stream⟩ := bracketed
      by_cases isBracket : u.text = "["
      · have isRectangle : shape = .rectangle := by
          have texts := isLeft.2.symm.trans isBracket
          cases shape <;> first | rfl | (exact absurd texts (by decide))
        subst isRectangle
        obtain ⟨v, vs, rfl⟩ := Token.stream_ne_nil stream
        have whole := Header.titled opens isId isLeft isTitle isRight
        by_cases isEnd : AtEnd [t, id, u, title, right] v
        · exact .accepted [t, id, u, title, right] rfl whole isEnd stream
        · refine .refused [t, id, u, title, right] [] rfl whole ?_
          intro feed post h
          have behindOpener := all_advance h
          have behindId := all_advance behindOpener
          have behindLeft := all_advance behindId
          have behindTitle := all_advance behindLeft
          have behindRight := all_advance behindTitle
          obtain ⟨fault, read⟩ := endStatement_refuses isEnd _ _ behindRight
          exact ⟨fault, by simp [Feed.head, identifier, kind_of_all behindOpener, isId,
            kind_of_all behindId, isOpener, current_of_all behindId, isBracket, read, bind, Except.bind]⟩
      · refine .refused [t, id] [] rfl (.untitled opens isId) ?_
        intro feed post h
        have behindOpener := all_advance h
        have behindId := all_advance behindOpener
        refine ⟨.titleBracket, ?_⟩
        simp [Feed.head, identifier, kind_of_all behindOpener, isId, kind_of_all behindId, isOpener,
          current_of_all behindId, isBracket, bind, Except.bind, refuse_eq behindId]
    · by_cases isEnd : AtEnd [t, id] u
      · exact .accepted [t, id] rfl (.untitled opens isId) isEnd behindId
      · refine .refused [t, id] [] rfl (.untitled opens isId) ?_
        intro feed post h
        have behindOpener := all_advance h
        have behindId := all_advance behindOpener
        obtain ⟨fault, read⟩ := endStatement_refuses isEnd _ _ behindId
        exact ⟨fault, by simp [Feed.head, identifier, kind_of_all behindOpener, isId,
          kind_of_all behindId, isOpener, read, bind, Except.bind]⟩
  · refine .refused [t] [supply .identifier] rfl (.untitled opens (supply_kind .identifier)) ?_
    intro feed post h
    have behindOpener := all_advance h
    refine ⟨.expected "subgraph id", ?_⟩
    simp [Feed.head, identifier, kind_of_all behindOpener, isId, bind, Except.bind, refuse_eq behindOpener]

theorem declares_of_stream (isWord : t.kind = .graph ∨ t.kind = .flowchart)
    (stream : Token.Stream (t :: ts)) : t.Declares ∧ Token.Stream ts := by
  have behind := Token.stream_cases stream
  rcases isWord with isWord | isWord <;> simp only [isWord] at behind
  · exact ⟨.inl ⟨isWord, behind.1⟩, behind.2⟩
  · exact ⟨.inr ⟨isWord, behind.1⟩, behind.2⟩

theorem ofName?_eq_some {name : String} {direction : Direction}
    (h : Direction.ofName? name = some direction) : name = direction.name := by
  have same := List.find?_some h
  exact (eq_of_beq same).symm

theorem declaration_verdict {tokens : List Token} (stream : Token.Stream tokens) :
    Verdict Declaration AtEnd declaration tokens := by
  obtain ⟨t, ts, rfl⟩ := Token.stream_ne_nil stream
  by_cases isWord : t.kind = .graph ∨ t.kind = .flowchart
  · obtain ⟨declares, behind⟩ := declares_of_stream isWord stream
    have known : t.kind ≠ .endOfInput ∧ (t.kind = .graph ∨ t.kind = .flowchart) :=
      ⟨by rcases isWord with isWord | isWord <;> simp [isWord], isWord⟩
    obtain ⟨u, us, rfl⟩ := Token.stream_ne_nil behind
    by_cases isName : u.kind = .identifier
    · have behindName := Token.stream_cases behind
      simp only [isName] at behindName
      obtain ⟨v, vs, rfl⟩ := Token.stream_ne_nil behindName
      cases named : Direction.ofName? u.text with
      | some direction =>
        have whole := Declaration.directed declares isName (ofName?_eq_some named)
        by_cases isEnd : AtEnd [t, u] v
        · exact .accepted [t, u] rfl whole isEnd behindName
        · refine .refused [t, u] [] rfl whole ?_
          intro feed post h
          have behind := all_advance h
          have behindName := all_advance behind
          obtain ⟨fault, read⟩ := endStatement_refuses isEnd _ _ behindName
          refine ⟨fault, ?_⟩
          rcases isWord with isWord | isWord <;>
          simp [declaration, current_of_all h, isWord, kind_of_all behind, isName,
            current_of_all behind, named, read, bind, Except.bind, pure, Except.pure]
      | none =>
        refine .refused [t] [] rfl (.plain declares) ?_
        intro feed post h
        have behind := all_advance h
        refine ⟨.unknownDirection, ?_⟩
        rcases isWord with isWord | isWord <;>
        simp [declaration, current_of_all h, isWord, kind_of_all behind, isName,
          current_of_all behind, named, bind, Except.bind, refuse_eq behind]
    · by_cases isEnd : AtEnd [t] u
      · exact .accepted [t] rfl (.plain declares) isEnd behind
      · refine .refused [t] [] rfl (.plain declares) ?_
        intro feed post h
        have behind := all_advance h
        obtain ⟨fault, read⟩ := endStatement_refuses isEnd _ _ behind
        refine ⟨fault, ?_⟩
        rcases isWord with isWord | isWord <;>
        simp [declaration, current_of_all h, isWord, kind_of_all behind, isName, read, bind,
          Except.bind, pure, Except.pure]
  · obtain ⟨notGraph, notFlowchart⟩ := not_or.1 isWord
    refine .refused [] [⟨.graph, "graph", default⟩] rfl (.plain (.inl ⟨rfl, rfl⟩)) ?_
    intro feed post h
    have h : feed.all = t :: post := h
    have other : (t.kind ≠ .graph && t.kind ≠ .flowchart) = true := by simp [notGraph, notFlowchart]
    simp only [declaration, current_of_all h, refuse_eq h]
    by_cases isFinal : t.kind = .endOfInput
    · exact ⟨.noDeclaration, by rw [if_pos isFinal]⟩
    · rw [if_neg isFinal, if_pos other]
      split
      · exact ⟨_, rfl⟩
      · exact ⟨_, rfl⟩

end Feed
end Flowchart
