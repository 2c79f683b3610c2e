import Flowchart.Proofs.Diagram.ErrorPosition
import Flowchart.Proofs.Related
import Flowchart.Proofs.Token.Spacing

/-!
Diagrams on the lines of a source. What the grammar derives from tokens depends on their kinds and texts, and the ranges
of it on their places, so that tokens that differ in their columns only spell the same diagram up to columns. The same
holds for a source with blanks, carriage returns and comments put in between its tokens.
-/
namespace Flowchart

/-- The range with nothing but its lines. -/
def Span.onLines (span : Span) : Span :=
  ⟨⟨span.start.line, 0, 0⟩, ⟨span.stop.line, 0, 0⟩⟩

def NodeRef.onLines (ref : NodeRef) : NodeRef :=
  { ref with span := ref.span.onLines }

def Link.onLines (link : Link) : Link :=
  { link with span := link.span.onLines }

namespace Statement

mutual

/-- The statement with the lines of its ranges and without their columns and offsets. -/
def onLines : Statement → Statement
  | node ref span => node ref.onLines span.onLines
  | chain nodes links span => chain (nodes.map NodeRef.onLines) (links.map Link.onLines) span.onLines
  | subgraph id title body span => subgraph id title (onLinesAll body) span.onLines

def onLinesAll : List Statement → List Statement
  | [] => []
  | statement :: body => statement.onLines :: onLinesAll body

end

theorem onLinesAll_eq_map (body : List Statement) : onLinesAll body = body.map onLines := by
  induction body with
  | nil => rfl
  | cons statement body ih => rw [onLinesAll, ih, List.map_cons]

end Statement

/-- The diagram with the lines of its ranges and without their columns and offsets. -/
def Diagram.onLines (diagram : Diagram) : Diagram :=
  { diagram with span := diagram.span.onLines, statements := Statement.onLinesAll diagram.statements }

namespace Token

variable {ts us : List Token} {t u : Token}

theorem kinds_of_alike {kind : Kind} (alike : List.Forall₂ Alike ts us) (all : ∀ t ∈ ts, t.kind = kind) :
    ∀ u ∈ us, u.kind = kind := by
  induction alike with
  | nil => exact List.forall_mem_nil _
  | cons first _ ih =>
    obtain ⟨isFirst, all⟩ := List.forall_mem_cons.1 all
    exact List.forall_mem_cons.2 ⟨first.kind.trans isFirst, ih all⟩

theorem line_getLastD (alike : List.Forall₂ Alike ts us) (same : u.position.line = t.position.line) :
    (us.getLastD u).position.line = (ts.getLastD t).position.line := by
  induction alike generalizing t u with
  | nil => exact same
  | cons first _ ih =>
    rw [List.getLastD_cons, List.getLastD_cons]
    exact ih first.line

theorem onLines_range (alike : List.Forall₂ Alike ts us) : (range us).onLines = (range ts).onLines := by
  have start : (us.headD default).position.line = (ts.headD default).position.line := by
    cases alike with
    | nil => rfl
    | cons first => exact first.line
  have stop : (us.getLastD default).position.line = (ts.getLastD default).position.line :=
    line_getLastD alike rfl
  simp only [Span.onLines, range, start, Token.stop, stop]

namespace Alike

theorem symm (alike : Alike t u) : Alike u t :=
  ⟨alike.kind.symm, alike.text.symm, alike.line.symm⟩

variable {kind : Kind} {text : List Char}

theorem spells (alike : Alike t u) (spells : t.Spells kind text) : u.Spells kind text :=
  ⟨alike.kind.trans spells.1, alike.text.trans spells.2⟩

theorem isLabel (alike : Alike t u) (isLabel : t.IsLabel) : u.IsLabel :=
  ⟨alike.kind.trans isLabel.1, alike.text ▸ isLabel.2⟩

theorem declares (alike : Alike t u) (declares : t.Declares) : u.Declares := by
  rwa [Declares, alike.kind, alike.text]

end Alike

end Token

namespace Grammar

open Token

variable {ts us : List Token}

theorem mention_of_alike {ref : NodeRef} (rule : Mention ts ref) (alike : List.Forall₂ Alike ts us) :
    ∃ other, Mention us other ∧ other.onLines = ref.onLines := by
  have range := onLines_range alike
  cases rule with
  | bare isId =>
    obtain _ | ⟨id, _ | _⟩ := alike
    exact ⟨_, .bare (id.kind.trans isId), by simp only [NodeRef.onLines, id.text, range]⟩
  | declared isId opens isLabel closes =>
    obtain _ | ⟨id, _ | ⟨opener, _ | ⟨label, _ | ⟨closer, _ | _⟩⟩⟩⟩ := alike
    refine ⟨_, .declared (id.kind.trans isId) (opener.spells opens) (label.isLabel isLabel) (closer.spells closes), ?_⟩
    simp only [NodeRef.onLines, id.text, label.text, range]

theorem joint_of_alike {link : Link} (rule : Joint ts link) (alike : List.Forall₂ Alike ts us) :
    ∃ other, Joint us other ∧ other.onLines = link.onLines := by
  have range := onLines_range alike
  cases rule with
  | plain isArrow =>
    obtain _ | ⟨arrow, _ | _⟩ := alike
    exact ⟨_, .plain (arrow.spells isArrow), by simp only [Link.onLines, range]⟩
  | barred isArrow opens isLabel closes =>
    obtain _ | ⟨arrow, _ | ⟨bar, _ | ⟨label, _ | ⟨close, _ | _⟩⟩⟩⟩ := alike
    refine ⟨_, .barred (arrow.spells isArrow) (bar.kind.trans opens) (label.isLabel isLabel)
      (close.kind.trans closes), ?_⟩
    simp only [Link.onLines, label.text, range]
  | inner opens isLabel isArrow =>
    obtain _ | ⟨opener, _ | ⟨label, _ | ⟨arrow, _ | _⟩⟩⟩ := alike
    refine ⟨_, .inner (opener.spells opens) (label.isLabel isLabel) (arrow.spells isArrow), ?_⟩
    simp only [Link.onLines, label.text, range]

theorem joints_of_alike {steps : List (Link × NodeRef)} (rule : Joints ts steps)
    (alike : List.Forall₂ Alike ts us) : ∃ others, Joints us others ∧
      (others.map Prod.fst).map Link.onLines = (steps.map Prod.fst).map Link.onLines ∧
      (others.map Prod.snd).map NodeRef.onLines = (steps.map Prod.snd).map NodeRef.onLines := by
  induction rule generalizing us with
  | nil =>
    cases alike
    exact ⟨[], .nil, rfl, rfl⟩
  | cons joint mention _ ih =>
    obtain ⟨first, _, rfl, isJoint, alike⟩ := forall₂_append_split alike
    obtain ⟨second, third, rfl, isMention, alike⟩ := forall₂_append_split alike
    obtain ⟨link, joint, sameLink⟩ := joint_of_alike joint isJoint
    obtain ⟨ref, mention, sameRef⟩ := mention_of_alike mention isMention
    obtain ⟨others, joints, sameLinks, sameRefs⟩ := ih alike
    refine ⟨(link, ref) :: others, .cons joint mention joints, ?_, ?_⟩
    · simp only [List.map_cons, sameLink, sameLinks]
    · simp only [List.map_cons, sameRef, sameRefs]

theorem chain_of_alike {statement : Statement} (rule : Chain ts statement) (alike : List.Forall₂ Alike ts us) :
    ∃ other, Chain us other ∧ other.onLines = statement.onLines := by
  have range := onLines_range alike
  cases rule with
  | node mention =>
    obtain ⟨ref, mention, same⟩ := mention_of_alike mention alike
    exact ⟨_, .node mention, by simp only [Statement.onLines, same, range]⟩
  | edges mention joints some =>
    obtain ⟨first, second, rfl, isMention, isJoints⟩ := forall₂_append_split alike
    obtain ⟨ref, mention, same⟩ := mention_of_alike mention isMention
    obtain ⟨others, joints, sameLinks, sameRefs⟩ := joints_of_alike joints isJoints
    have someOthers : others ≠ [] := by
      rintro rfl
      exact some (by simpa using sameLinks.symm)
    refine ⟨_, .edges mention joints someOthers, ?_⟩
    simp only [Statement.onLines, List.map_cons, same, sameLinks, sameRefs, range]

theorem header_of_alike {head : Feed.Head} (rule : Header ts head) (alike : List.Forall₂ Alike ts us) :
    ∃ other, Header us other ∧ other.id = head.id ∧ other.title = head.title := by
  cases rule with
  | untitled opens isId =>
    obtain _ | ⟨opener, _ | ⟨id, _ | _⟩⟩ := alike
    exact ⟨_, .untitled (opener.kind.trans opens) (id.kind.trans isId), id.text, rfl⟩
  | titled opens isId isLeft isTitle isRight =>
    obtain _ | ⟨opener, _ | ⟨id, _ | ⟨left, _ | ⟨title, _ | ⟨right, _ | _⟩⟩⟩⟩⟩ := alike
    refine ⟨_, .titled (opener.kind.trans opens) (id.kind.trans isId) (left.spells isLeft) (title.kind.trans isTitle)
      (right.spells isRight), id.text, ?_⟩
    simp only [title.text]

theorem sentence_lines_of_alike :
    (∀ ts statement, Sentence ts statement → ∀ us, List.Forall₂ Alike ts us →
      ∃ other, Sentence us other ∧ other.onLines = statement.onLines) ∧
    ∀ ts body, Lines ts body → ∀ us, List.Forall₂ Alike ts us →
      ∃ others, Lines us others ∧ others.map Statement.onLines = body.map Statement.onLines := by
  refine sentence_lines_induction ?_ ?_ ?_ ?_ ?_
  · intro ts statement rule us alike
    obtain ⟨other, chain, same⟩ := chain_of_alike rule alike
    exact ⟨other, .chain chain, same⟩
  · intro hs ts line close head body header isLine lines closes us alike
    have range := onLines_range alike
    obtain ⟨heads, _, rfl, isHeader, behindHeader⟩ := forall₂_append_split alike
    obtain _ | ⟨sameLine, behindLine⟩ := behindHeader
    obtain ⟨inner, _, rfl, isLines, isClose⟩ := forall₂_append_split behindLine
    obtain _ | ⟨sameClose, _ | _⟩ := isClose
    obtain ⟨other, header, sameId, sameTitle⟩ := header_of_alike header isHeader
    obtain ⟨others, lines, same⟩ := lines inner isLines
    refine ⟨_, .block header (sameLine.kind.trans isLine) lines (sameClose.kind.trans closes), ?_⟩
    simp only [Statement.onLines, Statement.onLinesAll_eq_map, sameId, sameTitle, same, range]
  · intro us alike
    cases alike
    exact ⟨[], .nil, rfl⟩
  · intro ts line body lines isLine us alike
    obtain ⟨inner, _, rfl, isLines, alike⟩ := forall₂_append_split alike
    obtain _ | ⟨sameLine, _ | _⟩ := alike
    obtain ⟨others, lines, same⟩ := lines inner isLines
    exact ⟨others, .blank lines (sameLine.kind.trans isLine), same⟩
  · intro ts vs line body statement lines sentence isLine us alike
    obtain ⟨inner, _, rfl, isLines, alike⟩ := forall₂_append_split alike
    obtain ⟨last, _, rfl, isSentence, alike⟩ := forall₂_append_split alike
    obtain _ | ⟨sameLine, _ | _⟩ := alike
    obtain ⟨others, lines, same⟩ := lines inner isLines
    obtain ⟨other, sentence, sameLast⟩ := sentence last isSentence
    refine ⟨others ++ [other], .line lines sentence (sameLine.kind.trans isLine), ?_⟩
    simp only [List.map_append, List.map_cons, List.map_nil, same, sameLast]

theorem declaration_of_alike {direction : Direction} (rule : Declaration ts direction)
    (alike : List.Forall₂ Alike ts us) : Declaration us direction := by
  cases rule with
  | plain isWord =>
    obtain _ | ⟨word, _ | _⟩ := alike
    exact .plain (word.declares isWord)
  | directed isWord isName isDirection =>
    obtain _ | ⟨word, _ | ⟨name, _ | _⟩⟩ := alike
    exact .directed (word.declares isWord) (name.kind.trans isName) (name.text.trans isDirection)

/-- The beginning of a diagram outside all blocks. -/
theorem opened_of_alike {direction : Direction} {span : Span} {blocks : List Feed.Block} {done : List Statement}
    (opened : Opened direction span ts blocks done) (outside : blocks = []) (alike : List.Forall₂ Alike ts us) :
    ∃ range others, Opened direction range us [] others ∧ range.onLines = span.onLines ∧
      others.map Statement.onLines = done.map Statement.onLines := by
  induction opened generalizing us with
  | declared areBlank rule isSpan isLine =>
    obtain ⟨blanks, _, rfl, isBlanks, alike⟩ := forall₂_append_split alike
    obtain ⟨words, _, rfl, isWords, alike⟩ := forall₂_append_split alike
    obtain _ | ⟨sameLine, _ | _⟩ := alike
    refine ⟨_, [], .declared (kinds_of_alike isBlanks areBlank) (declaration_of_alike rule isWords) rfl
      (sameLine.kind.trans isLine), ?_, rfl⟩
    rw [isSpan, onLines_range isWords]
  | blank _ isLine ih =>
    obtain ⟨front, _, rfl, isFront, alike⟩ := forall₂_append_split alike
    obtain _ | ⟨sameLine, _ | _⟩ := alike
    obtain ⟨range, others, opened, sameRange, same⟩ := ih outside isFront
    exact ⟨range, others, .blank opened (sameLine.kind.trans isLine), sameRange, same⟩
  | sentence _ rule isLine ih =>
    obtain ⟨front, _, rfl, isFront, alike⟩ := forall₂_append_split alike
    obtain ⟨last, _, rfl, isLast, alike⟩ := forall₂_append_split alike
    obtain _ | ⟨sameLine, _ | _⟩ := alike
    obtain ⟨range, others, opened, sameRange, same⟩ := ih outside isFront
    obtain ⟨other, sentence, sameLast⟩ := sentence_lines_of_alike.1 _ _ rule last isLast
    refine ⟨range, other :: others, .sentence opened sentence (sameLine.kind.trans isLine), sameRange, ?_⟩
    rw [List.map_cons, List.map_cons, sameLast, same]
  | header => cases outside

/-- Tokens that differ in their columns and offsets only spell diagrams that do so. -/
theorem document_of_alike {diagram : Diagram} (rule : Document ts diagram) (alike : List.Forall₂ Alike ts us) :
    ∃ other, Document us other ∧ other.onLines = diagram.onLines := by
  obtain ⟨opened, isLine, isFinal⟩ := rule
  rename_i line _ _ _ _
  obtain ⟨front, _, rfl, isFront, alike⟩ := forall₂_append_split alike
  obtain _ | ⟨sameFinal, _ | _⟩ := alike
  have ended : List.Forall₂ Alike (_ ++ [line]) (front ++ [line]) :=
    List.rel_append isFront (.cons ⟨rfl, rfl, rfl⟩ .nil)
  obtain ⟨range, others, opened, sameRange, same⟩ := opened_of_alike opened rfl ended
  rw [← others.reverse_reverse] at opened
  refine ⟨_, .intro opened isLine (sameFinal.kind.trans isFinal), ?_⟩
  simp only [Diagram.onLines, Statement.onLinesAll_eq_map, sameRange, List.map_reverse, same, List.reverse_reverse]

end Grammar

namespace Diagram

open Token Grammar

variable {source other : String} {tokens others : List Token} {pads : Nat → List Char}

/-- Sources whose tokens differ in their columns and offsets only hold the same diagram up to these. -/
theorem ofSource_of_alike {diagram : Diagram} (scanned : Token.scan source = .ok tokens)
    (again : Token.scan other = .ok others) (alike : List.Forall₂ Alike tokens others)
    (read : ofSource source = .ok diagram) :
    ∃ image, ofSource other = .ok image ∧ image.onLines = diagram.onLines := by
  obtain ⟨_, found, parsed⟩ := tokens_of_ofSource read
  obtain rfl : _ = tokens := Except.ok.inj (found.symm.trans scanned)
  have document := document_of_ofTokens (Token.stream_of_scan scanned) parsed
  obtain ⟨image, document, same⟩ := document_of_alike document alike
  exact ⟨image, ofSource_of_ofTokens again (ofTokens_of_document document), same⟩

theorem onLines_of_alike (scanned : Token.scan source = .ok tokens) (again : Token.scan other = .ok others)
    (alike : List.Forall₂ Alike tokens others) :
    (ofSource other).toOption.map onLines = (ofSource source).toOption.map onLines := by
  cases read : ofSource source with
  | ok diagram =>
    obtain ⟨image, isImage, same⟩ := ofSource_of_alike scanned again alike read
    simp only [isImage, Except.toOption, Option.map_some, same]
  | error error =>
    cases isImage : ofSource other with
    | error => rfl
    | ok image =>
      have back : List.Forall₂ Alike others tokens := alike.flip.imp fun _ _ same => same.symm
      obtain ⟨diagram, isDiagram, -⟩ := ofSource_of_alike again scanned back isImage
      rw [read] at isDiagram
      cases isDiagram

/-- Blanks and comments between tokens never matter. What is put in at the starts and ends of tokens leaves the source
one that can be scanned, with the same tokens on the same lines, and one that is read just if it was, as the same
diagram on the same lines. Carriage returns at line ends outside labels are such blanks. -/
theorem onLines_spaced (scanned : Token.scan source = .ok tokens) :
    (∀ pads, IsSpacing source.toList tokens pads →
      (∃ others, Token.scan (spaced pads source) = .ok others ∧ List.Forall₂ Alike tokens others) ∧
      (ofSource (spaced pads source)).toOption.map onLines = (ofSource source).toOption.map onLines) ∧
    ∀ pads, IsLineEnds source.toList tokens pads → IsSpacing source.toList tokens pads := by
  constructor
  · intro pads spacing
    obtain ⟨others, again, alike⟩ := scan_spaced scanned spacing
    exact ⟨⟨others, again, alike⟩, onLines_of_alike scanned again alike⟩
  · exact fun pads lineEnds => isSpacing_of_isLineEnds scanned lineEnds

/-- A label over two lines and a link around its label. -/
def crowded : String :=
  "graph LR\nA[a\n b]--x-->B"

def crowdedTokens : List Token :=
  [⟨.graph, "graph", ⟨1, 1, 0⟩⟩, ⟨.identifier, "LR", ⟨1, 7, 6⟩⟩, ⟨.newline, "\n", ⟨1, 9, 8⟩⟩,
    ⟨.identifier, "A", ⟨2, 1, 9⟩⟩, ⟨.openBracket, "[", ⟨2, 2, 10⟩⟩, ⟨.label, "a\n b", ⟨2, 3, 11⟩⟩,
    ⟨.closeBracket, "]", ⟨3, 3, 15⟩⟩, ⟨.linkStart, "--", ⟨3, 4, 16⟩⟩, ⟨.label, "x", ⟨3, 6, 18⟩⟩,
    ⟨.arrow, "-->", ⟨3, 7, 19⟩⟩, ⟨.identifier, "B", ⟨3, 10, 22⟩⟩, ⟨.endOfInput, "", ⟨3, 11, 23⟩⟩]

/-- Blanks and comments for it, the comments in front of its first line end and at its end. -/
def commentary : Nat → List Char
  | 0 => ['\t']
  | 8 => "\r%%-->[".toList
  | 10 => [' ']
  | 16 => [' ', '\t']
  | 22 => ['\r']
  | 23 => " %% |".toList
  | _ => []

/-- The other kind of line ends for it. -/
def returns : Nat → List Char
  | 8 => ['\r']
  | _ => []

theorem onLines_spaced_crowded :
    Token.scan crowded = .ok crowdedTokens ∧
      (IsSpacing crowded.toList crowdedTokens commentary ∧
        spaced commentary crowded = "\tgraph LR\r%%-->[\nA [a\n b] \t--x-->\rB %% |" ∧
        ∃ others, Token.scan (spaced commentary crowded) = .ok others ∧ List.Forall₂ Alike crowdedTokens others) ∧
      (IsLineEnds crowded.toList crowdedTokens returns ∧ spaced returns crowded = "graph LR\r\nA[a\n b]--x-->B" ∧
        (ofSource (spaced returns crowded)).toOption.map onLines = (ofSource crowded).toOption.map onLines) ∧
      (ofSource crowded).toOption.isSome = true := by
  have scanned : Token.scan crowded = .ok crowdedTokens := ok_of_toOption (by decide +kernel)
  have spacing : IsSpacing crowded.toList crowdedTokens commentary := by
    constructor
    · intro place some
      unfold commentary at some
      split at some
      case h_7 => exact absurd rfl some
      all_goals decide
    · intro place
      unfold commentary
      split
      case h_2 =>
        have feed : (crowded.toList.drop 8).head? = some '\n' := by decide +kernel
        exact ⟨['\r'], "%%-->[".toList, rfl, by simp [IsGap], .inr ⟨⟨⟨_, rfl⟩, by decide⟩, by simp [feed]⟩⟩
      case h_6 =>
        have ended : (crowded.toList.drop 23).head? = none := by decide +kernel
        exact ⟨[' '], "%% |".toList, rfl, by simp [IsGap], .inr ⟨⟨⟨_, rfl⟩, by decide⟩, by simp [ended]⟩⟩
      all_goals exact isPadding_run (by simp [IsGap]) _
  have lineEnds : IsLineEnds crowded.toList crowdedTokens returns := by
    intro place
    unfold returns
    split
    · exact .inr ⟨rfl, by decide, by decide⟩
    · exact .inl rfl
  have whole := onLines_spaced scanned
  refine ⟨scanned, ⟨spacing, by decide +kernel, (whole.1 commentary spacing).1⟩, ⟨lineEnds, by decide +kernel, ?_⟩,
    by decide +kernel⟩
  exact (whole.1 returns (whole.2 returns lineEnds)).2

end Diagram
end Flowchart
