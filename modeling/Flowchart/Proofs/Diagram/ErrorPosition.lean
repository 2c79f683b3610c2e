import Flowchart.Proofs.Diagram.Refusal
import Flowchart.Proofs.Related

/-!
The tokens of a source are a diagram of the grammar, or a token is refused: the first one that no diagram
has at its place. Only the end of the input inside a block is told otherwise, at the word that opened the
block.
-/
namespace Flowchart

namespace Grammar

open Feed (Head Block supply supply_kind)

variable {direction : Direction} {span : Span} {ts us tokens : List Token} {line close final t : Token}
  {blocks : List Block} {done : List Statement}

/-- The innermost open block: what is in front of it, its head, and its lines so far. -/
theorem innermost_of_opened {block : Block} (opened : Opened direction span ts (block :: blocks) done) :
    ∃ front hs line us, ts = front ++ (hs ++ line :: us) ∧
      Opened direction span front blocks block.before ∧ Header hs block.head ∧ line.kind = .newline ∧
      Lines us done.reverse := by
  generalize eq : block :: blocks = open_ at opened
  induction opened with
  | declared => cases eq
  | @blank ts last blocks done opened isLine ih =>
    obtain ⟨front, hs, line, us, rfl, outer, header, isHeadLine, lines⟩ := ih eq
    exact ⟨front, hs, line, us ++ [last], by simp, outer, header, isHeadLine, .blank lines isLine⟩
  | @sentence ts vs last blocks done statement opened rule isLine ih =>
    obtain ⟨front, hs, line, us, rfl, outer, header, isHeadLine, lines⟩ := ih eq
    refine ⟨front, hs, line, us ++ (vs ++ [last]), by simp, outer, header, isHeadLine, ?_⟩
    rw [List.reverse_cons]
    exact .line lines rule isLine
  | header opened header isLine =>
    cases eq
    exact ⟨_, _, _, [], rfl, opened, header, isLine, .nil⟩

theorem opened_close {block : Block} (opened : Opened direction span ts (block :: blocks) done)
    (closes : close.kind = .close) (isLine : line.kind = .newline) :
    Opened direction span (ts ++ [close] ++ [line]) blocks
      (.subgraph block.head.id block.head.title done.reverse ⟨block.head.opener.position, close.stop⟩ ::
        block.before) := by
  obtain ⟨front, hs, headLine, us, rfl, outer, header, isHeadLine, lines⟩ := innermost_of_opened opened
  obtain ⟨more, rfl, -⟩ := Feed.header_head header
  have range : Token.range (block.head.opener :: more ++ headLine :: (us ++ [close])) =
      ⟨block.head.opener.position, close.stop⟩ := by
    rw [Token.range, Feed.getLastD_append, List.getLastD_cons, Feed.getLastD_append]
    rfl
  have whole := Opened.sentence outer (.block header isHeadLine lines closes) isLine
  rw [range] at whole
  simpa using whole

theorem viable_of_append (viable : Viable (ts ++ us)) : Viable ts := by
  obtain ⟨more, diagram, rule⟩ := viable
  exact ⟨us ++ more, diagram, List.append_assoc _ _ _ ▸ rule⟩

theorem keyword_of_unclosed {keyword : Token} (unclosed : Unclosed ts keyword) :
    keyword ∈ ts ∧ keyword.kind = .subgraph := by
  obtain ⟨direction, span, line, block, blocks, done, isLine, rfl, opened⟩ := unclosed
  obtain ⟨front, hs, headLine, us, eq, outer, header, isHeadLine, lines⟩ := innermost_of_opened opened
  obtain ⟨more, rfl, opens⟩ := Feed.header_head header
  refine ⟨?_, opens⟩
  have mem : block.head.opener ∈ ts ++ [line] := by rw [eq]; simp
  rcases List.mem_append.1 mem with inside | atEnd
  · exact inside
  · rw [List.mem_singleton.1 atEnd, isLine] at opens
    cases opens

/-- Open blocks can be closed one after another. -/
theorem viable_of_opened (opened : Opened direction span ts blocks done) : Viable ts := by
  induction blocks generalizing ts done with
  | nil =>
    have ended := Opened.blank opened (supply_kind .newline)
    rw [← done.reverse_reverse] at ended
    exact ⟨[supply .endOfInput], _, .intro ended rfl rfl⟩
  | cons block blocks ih =>
    have closed := opened_close opened (supply_kind .close) (supply_kind .newline)
    exact viable_of_append (viable_of_append (ih closed))

end Grammar

namespace Diagram

open Grammar Feed

/-- What becomes of the tokens of a source. -/
inductive Outcome (tokens : List Token) : Prop where
  | document {diagram : Diagram} : Document tokens diagram → Outcome tokens
  | unclosed {ts : List Token} {final keyword : Token} : tokens = ts ++ [final] →
      final.kind = .endOfInput → Unclosed ts keyword → Outcome tokens
  | refused {pre post : List Token} {t : Token} : tokens = pre ++ t :: post → Viable pre →
      (∀ other, ∃ fault, ofTokens (pre ++ t :: other) = .error (.refused fault t)) → Outcome tokens

variable {direction : Direction} {span : Span} {pre ts us post : List Token} {t final line : Token}
  {blocks : List Block} {done : List Statement}

theorem outcome_of_ended (opened : Opened direction span (ts ++ [line]) blocks done)
    (isLine : line.kind = .newline) (isFinal : final.kind = .endOfInput) : Outcome (ts ++ [final]) := by
  cases blocks with
  | nil =>
    rw [← done.reverse_reverse] at opened
    exact .document (.intro opened isLine isFinal)
  | cons block blocks =>
    exact .unclosed rfl isFinal ⟨direction, span, line, block, blocks, done, isLine, rfl, opened⟩

/-- What the loop refuses behind the beginning of a diagram is refused. -/
theorem outcome_of_refuses (opened : Opened direction span pre blocks done) (split : ts = us ++ t :: post)
    (viable : Viable (pre ++ us)) (refuses : Refuses (Feed.statements blocks done) us t) :
    Outcome (pre ++ ts) := by
  refine .refused (by rw [split, List.append_assoc]) viable ?_
  intro other
  obtain ⟨feed, all⟩ : ∃ feed : Feed, feed.all = us ++ t :: other := by
    cases us with
    | nil => exact exists_all _ _
    | cons u us => exact exists_all u (us ++ t :: other)
  have resumes := resumes_of_opened opened feed
  obtain ⟨fault, refused⟩ := refuses feed other all
  refine ⟨fault, ?_⟩
  rw [Resumes, all, refused] at resumes
  rw [List.append_assoc, resumes, Except.map]

/-- A statement that ends with the input ends the reading, any other one goes on behind its line. -/
theorem outcome_of_ends (isEnd : AtEnd us t) (stream : Token.Stream (t :: post))
    (opened : ∀ line : Token, line.kind = .newline → Opened direction span (us ++ [line]) blocks done)
    (goOn : Opened direction span (us ++ [t]) blocks done → Token.Stream post →
      Outcome (us ++ [t] ++ post)) : Outcome (us ++ t :: post) := by
  have behind := Token.stream_cases stream
  rcases isEnd with isLine | isFinal
  · simp only [isLine] at behind
    simpa using goOn (opened t isLine) behind
  · simp only [isFinal] at behind
    subst behind
    exact outcome_of_ended (opened (supply .newline) rfl) rfl isFinal

/-- A phrase that starts with `t` is read or refused, and the reading goes on behind its end. -/
theorem outcome_of_verdict {α : Type} {rule : List Token → α → Prop}
    {read : Feed → Except ParseError (α × Feed)}
    (next : Feed → α × Feed → Except ParseError (List Statement))
    (inside : α → List Block) (before : α → List Statement)
    (opened : Opened direction span pre blocks done) (verdict : Verdict rule AtEnd read (t :: ts))
    (step : ∀ feed rest, feed.all = t :: rest → feed.statements blocks done = (read feed).bind (next feed))
    (grow : ∀ us tree line, rule us tree → line.kind = .newline →
      Opened direction span (pre ++ us ++ [line]) (inside tree) (before tree))
    (goOn : ∀ us post tree, post.length < (t :: ts).length →
      Opened direction span us (inside tree) (before tree) → Token.Stream post → Outcome (us ++ post)) :
    Outcome (pre ++ t :: ts) := by
  cases verdict with
  | @accepted us post u tree eq phrase isEnd stream =>
    have shorter : post.length < (t :: ts).length := by
      rw [eq, List.length_append, List.length_cons]
      omega
    rw [eq, ← List.append_assoc]
    exact outcome_of_ends isEnd stream (fun line => grow us tree line phrase)
      (goOn _ post tree shorter)
  | @refused us more post u tree eq phrase refuses =>
    have whole := grow (us ++ more) tree (supply .newline) phrase rfl
    have viable : Viable (pre ++ us ++ (more ++ [supply .newline])) := by
      simpa using viable_of_opened whole
    exact outcome_of_refuses opened eq (viable_of_append viable)
      (refuses_congr (refuses_bind refuses) eq.symm step)

theorem outcome_of_opened (opened : Opened direction span pre blocks done) (stream : Token.Stream ts) :
    Outcome (pre ++ ts) := by
  induction size : ts.length using Nat.strongRecOn generalizing pre ts blocks done with
  | ind n ih =>
    obtain ⟨t, ts, rfl⟩ := Token.stream_ne_nil stream
    have behind := Token.stream_cases stream
    have viable : Viable (pre ++ []) := by simpa using viable_of_opened opened
    cases isKind : t.kind <;> simp only [isKind] at behind
    case newline => simpa using ih _ (by simp [← size]) (.blank opened isKind) behind rfl
    case endOfInput =>
      subst behind
      exact outcome_of_ended (.blank opened (supply_kind .newline)) rfl isKind
    case close =>
      cases blocks with
      | nil =>
        refine outcome_of_refuses opened (List.nil_append _).symm viable ?_
        intro feed other h
        have h : feed.all = t :: other := h
        exact ⟨.strayEnd, by rw [statements_step h (by simp [isKind])]; simp [isKind, refuse_eq h]⟩
      | cons block outer =>
        have closed (line : Token) (isLine : line.kind = .newline) := opened_close opened isKind isLine
        obtain ⟨u, us, rfl⟩ := Token.stream_ne_nil behind
        by_cases isEnd : AtEnd [t] u
        · have shorter : us.length < n := by simp only [← size, List.length_cons]; omega
          have goOn := outcome_of_ends (show AtEnd (pre ++ [t]) u from isEnd) behind closed
            (fun opened stream => ih _ shorter opened stream rfl)
          simpa using goOn
        · have viable := viable_of_append (viable_of_opened (closed (supply .newline) rfl))
          refine outcome_of_refuses opened (show t :: u :: us = [t] ++ u :: us from rfl) viable ?_
          intro feed other h
          obtain ⟨fault, read⟩ := endStatement_refuses isEnd _ _ (all_advance h)
          refine ⟨fault, ?_⟩
          rw [statements_step h (by simp [isKind])]
          simp [isKind, read, Except.bind]
    case subgraph =>
      refine outcome_of_verdict (fun _ head => head.2.statements (⟨head.1, done⟩ :: blocks) [])
        (fun head => ⟨head, done⟩ :: blocks) (fun _ => []) opened (header_verdict isKind stream) ?_ ?_ ?_
      · intro feed rest h
        rw [statements_step h (by simp [isKind]), isKind]
      · intro us head line header isLine
        simpa using Opened.header opened header isLine
      · intro us post head shorter opened stream
        exact ih _ (size ▸ shorter) opened stream rfl
    case identifier =>
      refine outcome_of_verdict (fun _ statement => statement.2.statements blocks (statement.1 :: done))
        (fun _ => blocks) (fun statement => statement :: done) opened (chain_verdict stream) ?_ ?_ ?_
      · intro feed rest h
        rw [statements_step h (by simp [isKind]), isKind]
      · intro us statement line chain isLine
        simpa using Opened.sentence opened (.chain chain) isLine
      · intro us post statement shorter opened stream
        exact ih _ (size ▸ shorter) opened stream rfl
    all_goals
      refine outcome_of_refuses opened (List.nil_append _).symm viable ?_
      intro feed other h
      have h : feed.all = t :: other := h
      rw [statements_step h (by simp [isKind])]
      simp [isKind, refuse_eq h]

/-- Blank lines may stand in front of the declaration. -/
theorem outcome_of_blanks {blanks : List Token} (areBlank : ∀ blank ∈ blanks, blank.kind = .newline)
    (stream : Token.Stream ts) : Outcome (blanks ++ ts) := by
  induction ts generalizing blanks with
  | nil => cases (Token.stream_ne_nil stream).choose_spec.choose_spec
  | cons t ts ih =>
    by_cases isLine : t.kind = .newline
    · have behind := Token.stream_cases stream
      simp only [isLine] at behind
      have areBlank : ∀ blank ∈ blanks ++ [t], blank.kind = .newline := by
        intro blank mem
        rcases List.mem_append.1 mem with mem | mem
        · exact areBlank blank mem
        · rwa [List.mem_singleton.1 mem]
      simpa using ih areBlank behind
    · cases declaration_verdict stream with
      | @accepted us post u direction eq rule isEnd stream =>
        have opened (line : Token) (isLine : line.kind = .newline) :
            Opened direction (Token.range us) (blanks ++ us ++ [line]) [] [] := by
          simpa using Opened.declared areBlank rule rfl isLine
        rw [eq, ← List.append_assoc]
        exact outcome_of_ends (show AtEnd (blanks ++ us) u from isEnd) stream opened outcome_of_opened
      | @refused us more post u direction eq rule refuses =>
        have opened := Opened.declared areBlank rule rfl (supply_kind .newline)
        have viable : Viable (blanks ++ us ++ (more ++ [supply .newline])) := by
          simpa using viable_of_opened opened
        have split : blanks ++ t :: ts = blanks ++ us ++ u :: post := by rw [eq, List.append_assoc]
        refine .refused split (viable_of_append viable) ?_
        intro other
        obtain ⟨rest, first⟩ := head_append eq.symm other
        obtain ⟨feed, all⟩ : ∃ feed : Feed, feed.all = blanks ++ t :: rest := by
          cases blanks with
          | nil => exact exists_all _ _
          | cons blank blanks => exact exists_all blank (blanks ++ t :: rest)
        have skipped := all_skipNewlines all areBlank isLine
        obtain ⟨fault, refused⟩ := refuses _ other (skipped.trans first.symm)
        refine ⟨fault, ?_⟩
        rw [List.append_assoc, first, ← all, ofTokens_eq, refused]
        rfl

theorem outcome_of_stream {tokens : List Token} (stream : Token.Stream tokens) : Outcome tokens := by
  have areBlank : ∀ blank ∈ ([] : List Token), blank.kind = .newline := by simp
  exact outcome_of_blanks areBlank stream

/-- What is read from the tokens of a source has a derivation. -/
theorem document_of_ofTokens {tokens : List Token} {diagram : Diagram} (stream : Token.Stream tokens)
    (read : ofTokens tokens = .ok diagram) : Document tokens diagram := by
  cases outcome_of_stream stream with
  | @document found rule =>
    rw [ofTokens_of_document rule] at read
    cases read
    exact rule
  | @unclosed ts final keyword eq isFinal unclosed =>
    obtain ⟨fault, refused⟩ := ofTokens_of_unclosed unclosed isFinal []
    rw [eq, refused] at read
    cases read
  | @refused pre post t eq viable refuses =>
    obtain ⟨fault, refused⟩ := refuses post
    rw [eq, refused] at read
    cases read

/-- What is refused is a token of the source. -/
theorem refused_of_ofTokens {tokens : List Token} {error : ParseError} (stream : Token.Stream tokens)
    (read : ofTokens tokens = .error error) : ∃ fault, ∃ place ∈ tokens, error = .refused fault place := by
  cases outcome_of_stream stream with
  | document rule =>
    rw [ofTokens_of_document rule] at read
    cases read
  | @unclosed ts final keyword eq isFinal unclosed =>
    obtain ⟨fault, refused⟩ := ofTokens_of_unclosed unclosed isFinal []
    rw [eq, refused] at read
    cases read
    refine ⟨fault, keyword, ?_, rfl⟩
    rw [eq]
    exact List.mem_append_left _ (keyword_of_unclosed unclosed).1
  | @refused pre post t eq viable refuses =>
    obtain ⟨fault, refused⟩ := refuses post
    rw [eq, refused] at read
    cases read
    refine ⟨fault, t, ?_, rfl⟩
    rw [eq]
    exact List.mem_append_right _ List.mem_cons_self

/-- Where the refusal of `t` behind `pre` is reported: at `t`, or at the word of the innermost block
where `t` is the end of the input between two statements of it. -/
def Reported (pre : List Token) (t place : Token) : Prop :=
  (t.kind = .endOfInput ∧ Unclosed pre place) ∨
    (place = t ∧ ∀ keyword, t.kind = .endOfInput → ¬Unclosed pre keyword)

theorem not_viable {pre : List Token} (refused : ∀ other, ∃ error, ofTokens (pre ++ other) = .error error) :
    ¬Viable pre := by
  rintro ⟨more, diagram, rule⟩
  obtain ⟨error, refused⟩ := refused more
  rw [ofTokens_of_document rule] at refused
  cases refused

/-- On the tokens of a source, the reader accepts just the diagrams of the grammar and reports the
first token that no diagram has behind the tokens in front of it. -/
theorem ofTokens_exact {source : String} {tokens : List Token} (scanned : Token.scan source = .ok tokens) :
    (∀ diagram, ofTokens tokens = .ok diagram ↔ Document tokens diagram) ∧
      ∀ error, ofTokens tokens = .error error →
        ∃ pre t post fault place, tokens = pre ++ t :: post ∧ Viable pre ∧ ¬Viable (pre ++ [t]) ∧
          error = .refused fault place ∧ error.failure.position = some place.position ∧
          Reported pre t place := by
  have stream := Token.stream_of_scan scanned
  refine ⟨fun diagram => ⟨document_of_ofTokens stream, ofTokens_of_document⟩, ?_⟩
  intro error same
  cases outcome_of_stream stream with
  | @document found rule =>
    rw [ofTokens_of_document rule] at same
    cases same
  | @unclosed ts final keyword eq isFinal unclosed =>
    obtain ⟨fault, refused⟩ := ofTokens_of_unclosed unclosed isFinal []
    have none : ¬Viable (ts ++ [final]) := by
      refine not_viable fun other => ?_
      obtain ⟨fault, refused⟩ := ofTokens_of_unclosed unclosed isFinal other
      exact ⟨_, by simpa using refused⟩
    rw [eq, refused] at same
    cases same
    have viable : Viable ts := by
      obtain ⟨direction, span, line, block, blocks, done, isLine, isKeyword, opened⟩ := unclosed
      exact viable_of_append (viable_of_opened opened)
    exact ⟨ts, final, [], fault, keyword, eq, viable, none, rfl, rfl, .inl ⟨isFinal, unclosed⟩⟩
  | @refused pre post t eq viable refuses =>
    obtain ⟨fault, refused⟩ := refuses post
    have none : ¬Viable (pre ++ [t]) := by
      refine not_viable fun other => ?_
      obtain ⟨fault, refused⟩ := refuses other
      exact ⟨_, by simpa using refused⟩
    rw [eq, refused] at same
    cases same
    refine ⟨pre, t, post, fault, t, eq, viable, none, rfl, rfl, .inr ⟨rfl, ?_⟩⟩
    intro keyword isFinal unclosed
    obtain ⟨fault', refused'⟩ := ofTokens_of_unclosed unclosed isFinal post
    rw [refused] at refused'
    cases refused'
    have opens := (keyword_of_unclosed unclosed).2
    rw [isFinal] at opens
    cases opens

/-- The tokens of a block that is never closed. -/
def openBlock : List Token :=
  [⟨.graph, "graph", ⟨1, 1, 0⟩⟩, ⟨.newline, "\n", ⟨1, 6, 5⟩⟩, ⟨.subgraph, "subgraph", ⟨2, 1, 6⟩⟩,
    ⟨.identifier, "s", ⟨2, 10, 15⟩⟩, ⟨.endOfInput, "", ⟨2, 11, 16⟩⟩]

theorem ofTokens_exact_openBlock :
    Token.scan "graph\nsubgraph s" = .ok openBlock ∧ ∃ error, ofTokens openBlock = .error error ∧
      ∃ pre t post fault place, openBlock = pre ++ t :: post ∧ Viable pre ∧ ¬Viable (pre ++ [t]) ∧
        error = .refused fault place ∧ error.failure.position = some place.position ∧
        Reported pre t place := by
  have scanned : Token.scan "graph\nsubgraph s" = .ok openBlock := ok_of_toOption (by decide +kernel)
  have refused : (ofTokens openBlock).toOption.isNone = true := by decide +kernel
  obtain ⟨error, read⟩ := error_of_toOption (Option.isNone_iff_eq_none.1 refused)
  exact ⟨scanned, error, read, (ofTokens_exact scanned).2 error read⟩

end Diagram
end Flowchart
