import Mathlib.Data.List.Basic
import Flowchart.Proofs.Diagram.ErrorPosition
import Flowchart.Proofs.Diagram.RoundTrip
import Flowchart.Proofs.Text.Trimming
import Flowchart.Proofs.Token.Places

/-!
The two places of a link's label: inside the link, between what opens and what closes it, or between bars behind the
arrow. Both say the same of a label that is not written between double quotes. The quotes of a label between bars are
taken off and those of a label inside its link stay, so that a quoted label is read in two ways.
-/
namespace Flowchart

open Token (Scans scans_mono scans_blank scans_line scans_append scans_lexeme)
open Grammar

namespace Text

/-- A text without a character begins in front of that character. -/
theorem prefix_of_not_mem {part front back : List Char} {c : Char} (absent : c ∉ part)
    (isPrefix : part <+: front ++ c :: back) : part <+: front := by
  refine List.prefix_of_prefix_length_le isPrefix (List.prefix_append _ _) (Nat.le_of_not_lt fun longer => ?_)
  have reaches : front ++ [c] <+: part := by
    refine List.prefix_of_prefix_length_le ⟨back, by simp⟩ isPrefix ?_
    rw [List.length_append, List.length_singleton]
    omega
  exact absent (reaches.subset (List.mem_append_right _ List.mem_cons_self))

theorem trimChars_spaced (cs : List Char) : trimChars (' ' :: (cs ++ [' '])) = trimChars cs := by
  have blank : ∀ c ∈ [' '], isBlank c = true := List.forall_mem_singleton.2 rfl
  exact trimChars_between blank blank

end Text

namespace Lexeme

theorem space_not_mem_closer (style : EdgeStyle) (head : Bool) : ' ' ∉ style.closer head := by
  cases style <;> cases head <;> simp [EdgeStyle.closer]

theorem readCloser?_eq_none {style : EdgeStyle} {cs : List Char} (other : ∀ head, ¬style.closer head <+: cs) :
    readCloser? style cs = none := by
  refine List.findSome?_eq_none_iff.2 fun head _ => ?_
  rw [Option.map_eq_none_iff, Option.eq_none_iff_forall_ne_some]
  intro rest found
  exact other head ⟨rest, (Text.stripPrefix?_eq_some_iff.1 found).symm⟩

theorem readCloser?_append (style : EdgeStyle) (head : Bool) {rest : List Char} (noHead : ∀ c ∈ rest.head?, c ≠ '>') :
    readCloser? style (style.closer head ++ rest) = some (head, rest) := by
  cases style <;> cases head
  case dashed.false =>
    -- a following angle bracket would make it the close with a head
    cases rest with
    | nil => rfl
    | cons d rest =>
      have notHead : '>' ≠ d := (noHead d rfl).symm
      simp [readCloser?, EdgeStyle.closer, Text.stripPrefix?, notHead]
  all_goals simp [readCloser?, EdgeStyle.closer, Text.stripPrefix?]

/-- No close of the link begins in a label that holds none, nor in the spaces around it. -/
theorem not_closer_prefix {style : EdgeStyle} {label front back behind : List Char} {head : Bool} {c : Char}
    (noCloser : ¬style.closer head <:+: label) (split : ' ' :: (label ++ [' ']) = front ++ c :: back) :
    ¬style.closer head <+: c :: (back ++ behind) := by
  intro isPrefix
  have noSpace := space_not_mem_closer style head
  -- What is left of the label ends with a space, in front of which the close has to lie.
  obtain ⟨less, isLess⟩ : ∃ less, c :: back = less ++ [' '] := by
    rcases List.eq_nil_or_concat (c :: back) with none | ⟨less, last, isLast⟩
    · cases none
    · rw [isLast, List.concat_eq_append, ← List.append_assoc, ← List.cons_append] at split
      obtain ⟨-, same⟩ := List.append_inj' split rfl
      exact ⟨less, by rw [isLast, List.concat_eq_append, ← same]⟩
  rw [← List.cons_append, isLess, List.append_assoc] at isPrefix
  have within := Text.prefix_of_not_mem noSpace isPrefix
  rw [isLess, ← List.append_assoc, ← List.cons_append] at split
  have isFront := (List.append_inj' split rfl).1
  cases front with
  | nil =>
    rw [List.nil_append] at isFront
    rw [← isFront] at within
    obtain ⟨first, more, isCloser⟩ := List.exists_cons_of_ne_nil (closer_ne_nil style head)
    rw [isCloser] at within noSpace
    exact noSpace ((List.cons_prefix_cons.1 within).1 ▸ List.mem_cons_self)
  | cons d front =>
    obtain ⟨-, isLabel⟩ := List.cons.inj isFront
    exact noCloser (within.isInfix.trans (isLabel ▸ (List.suffix_append front less).isInfix))

/-- A label inside its link, with a space on either side. -/
theorem readable_inlineLabel {style : EdgeStyle} {label : List Char} (head : Bool) (oneLine : '\n' ∉ label)
    (noCloser : ∀ head, ¬style.closer head <:+: label) :
    Readable (inlineLabel style (' ' :: (label ++ [' '])) head) := by
  have closes (rest : List Char) (free : Free rest) : Text.scanTo? (readCloser? style) (· = '\n')
      (' ' :: (label ++ [' ']) ++ (style.closer head ++ rest)) =
        some (' ' :: (label ++ [' ']), head, rest) := by
    have found := readCloser?_append style head fun c mem => (free c mem).2
    obtain ⟨first, more, isCloser⟩ := List.exists_cons_of_ne_nil (closer_ne_nil style head)
    have allowed : first ≠ '\n' := by
      rintro rfl
      cases style <;> cases head <;> simp [EdgeStyle.closer] at isCloser
    rw [isCloser] at found ⊢
    refine Text.scanTo?_behind ?_ (decide_eq_false allowed) found
    intro front d back split
    have inLabel : d ∈ ' ' :: (label ++ [' ']) := split ▸ List.mem_append_right _ List.mem_cons_self
    have notLine : d ≠ '\n' := by
      rintro rfl
      simp [oneLine] at inLabel
    exact ⟨by simpa using notLine, readCloser?_eq_none fun head => not_closer_prefix (noCloser head) split⟩
  obtain ⟨c, d, eq, isMark⟩ : ∃ c d, style.opener = [c, d] ∧
      ((c = '-' ∧ d = '-') ∨ (c = '-' ∧ d = '.') ∨ (c = '=' ∧ d = '=')) := by
    cases style <;> exact ⟨_, _, rfl, by decide⟩
  have visible : Visible c := by rcases isMark with ⟨rfl, -⟩ | ⟨rfl, -⟩ | ⟨rfl, -⟩ <;> decide
  refine ⟨c, d :: (' ' :: (label ++ [' ']) ++ style.closer head), by simp [chars, eq], visible, ?_⟩
  intro rest free
  have opens (cs : List Char) : readBracket? (c :: d :: cs) = none ∧ readArrow? (c :: d :: ' ' :: cs) = none ∧
      readLinkStart? (c :: d :: cs) = some (style, cs) := by
    cases style <;> cases eq <;> simp [readBracket?, Shape.all, Shape.opener, readArrow?, EdgeStyle.arrows,
      EdgeStyle.arrow, EdgeStyle.closer, readLinkStart?, EdgeStyle.all, EdgeStyle.opener, Text.stripPrefix?]
  have noBar : c ≠ '\n' ∧ c ≠ ';' ∧ c ≠ '|' := by
    rcases isMark with ⟨rfl, -⟩ | ⟨rfl, -⟩ | ⟨rfl, -⟩ <;> decide
  have labelled := closes rest free
  simp only [List.cons_append, List.append_assoc, List.nil_append] at labelled
  simp [read, noBar, opens, readInlineLabel, labelled]

end Lexeme

theorem unquote_eq_self_iff {cs : List Char} : unquote cs = cs ↔ ¬∃ inside, cs = '"' :: (inside ++ ['"']) := by
  constructor
  · rintro same ⟨inside, rfl⟩
    have size := congrArg List.length same
    simp only [unquote, List.getLast?_concat, if_true, List.dropLast_concat, List.length_cons, List.length_append]
      at size
    omega
  · intro bare
    unfold unquote
    split
    · rename_i rest
      refine if_neg fun closes => bare ⟨rest.dropLast, ?_⟩
      rw [List.dropLast_append_getLast? _ closes]
    · rfl

/-! ### The two links and their tokens -/

namespace EdgeStyle

/-- A link around its label, with a space on either side. -/
def around (style : EdgeStyle) (head : Bool) (label : List Char) : List Char :=
  style.opener ++ ' ' :: (label ++ ' ' :: style.closer head)

/-- A link with its label between bars behind the arrow. -/
def beside (style : EdgeStyle) (head : Bool) (label : List Char) : List Char :=
  style.arrow head ++ '|' :: (label ++ ['|'])

end EdgeStyle

/-- The tokens of a link with a label, which may be empty. -/
inductive Labelled (style : EdgeStyle) (head : Bool) (text : String) : List Token → Prop where
  | inner {opener label arrow : Token} : opener.Spells .linkStart style.opener → label.kind = .label →
      label.text = text → arrow.Spells .arrow (style.closer head) → Labelled style head text [opener, label, arrow]
  | barred {arrow bar label close : Token} : arrow.Spells .arrow (style.arrow head) → bar.kind = .pipe →
      label.kind = .label → label.text = text → close.kind = .pipe →
      Labelled style head text [arrow, bar, label, close]

variable {style : EdgeStyle} {head : Bool} {label : List Char} {text : String} {ts : List Token}

theorem scans_around (oneLine : '\n' ∉ label) (noCloser : ∀ head, ¬style.closer head <:+: label) :
    Scans (style.around head label) (Labelled style head (String.ofList (Text.trimChars label))) := by
  have scans := scans_lexeme (Lexeme.readable_inlineLabel head oneLine noCloser)
  have chars : (Lexeme.inlineLabel style (' ' :: (label ++ [' '])) head).chars = style.around head label := by
    simp [Lexeme.chars, EdgeStyle.around]
  rw [chars] at scans
  refine scans_mono scans ?_
  rintro ts ⟨at_, rfl⟩
  exact .inner ⟨rfl, rfl⟩ rfl (congrArg String.ofList (Text.trimChars_spaced label)) ⟨rfl, rfl⟩

theorem scans_beside (oneLine : '\n' ∉ label) (noBar : '|' ∉ label) :
    Scans (style.beside head label) (Labelled style head (String.ofList (unquote (Text.trimChars label)))) := by
  have plain : ∀ c ∈ label, c ≠ '|' ∧ c ≠ '\n' := by
    intro c mem
    exact ⟨fun same => noBar (same ▸ mem), fun same => oneLine (same ▸ mem)⟩
  have arrow := scans_lexeme (Lexeme.readable_arrow style head)
  have barred := scans_lexeme (Lexeme.readable_pipeLabel plain)
  refine scans_mono (scans_append arrow barred (free_cons _ (by decide))) ?_
  rintro ts ⟨us, vs, rfl, ⟨at_, rfl⟩, place, rfl⟩
  exact .barred ⟨rfl, rfl⟩ rfl rfl rfl rfl

theorem joint_of_labelled (rule : Labelled style head text ts) (some : text ≠ "") :
    ∃ link, Joint ts link ∧ link.bare = ⟨style, head, text, default⟩ := by
  cases rule with
  | inner opens isLabel isText isArrow =>
    subst isText
    exact ⟨_, .inner opens ⟨isLabel, some⟩ isArrow, rfl⟩
  | barred isArrow isBar isLabel isText isClose =>
    subst isText
    exact ⟨_, .barred isArrow isBar ⟨isLabel, some⟩ isClose, rfl⟩

theorem labelled_head (rule : Labelled style head text ts) :
    ∃ first more, ts = first :: more ∧ (first.kind = .arrow ∨ first.kind = .linkStart) := by
  cases rule with
  | inner opens => exact ⟨_, _, rfl, .inr opens.1⟩
  | barred isArrow => exact ⟨_, _, rfl, .inl isArrow.1⟩

namespace Feed

/-- A link whose label is empty is refused at the label. -/
theorem link_of_unlabelled {feed : Feed} {post : List Token} (rule : Labelled style head "" ts)
    (h : feed.all = ts ++ post) : ∃ place, feed.link = .error (.refused .emptyEdgeLabel place) := by
  cases rule with
  | @inner opener label arrow opens isLabel isEmpty isArrow =>
    have behindStart := all_advance h
    exact ⟨label, by simp [link, linkParts, kind_of_all h, opens.1, current_of_all behindStart, isEmpty,
      refuse_eq behindStart]⟩
  | @barred arrow bar label close isArrow isBar isLabel isEmpty isClose =>
    have behindArrow := all_advance h
    have behindBar := all_advance behindArrow
    exact ⟨label, by simp [link, linkParts, kind_of_all h, isArrow.1, kind_of_all behindArrow, isBar,
      current_of_all behindBar, isEmpty, refuse_eq behindBar]⟩

/-- So is the edge that it stands in. -/
theorem statements_of_unlabelled {feed : Feed} {source : Token} {post : List Token} {blocks : List Block}
    {done : List Statement} (isId : source.kind = .identifier) (rule : Labelled style head "" ts)
    (h : feed.all = source :: (ts ++ post)) :
    ∃ place, feed.statements blocks done = .error (.refused .emptyEdgeLabel place) := by
  obtain ⟨first, more, isLink, opens⟩ := labelled_head rule
  have detached : Detached [source] first := fun _ => by rcases opens with opens | opens <;> simp [opens]
  obtain ⟨behind, read, all, -⟩ := nodeRef_of_mention (.bare isId) (by rw [h, isLink]; rfl) detached
  obtain ⟨place, refused⟩ := link_of_unlabelled rule (by rw [all, isLink]; rfl)
  refine ⟨place, ?_⟩
  rw [statements_step h (by simp [isId]), isId, chain_eq]
  simp only [read, Except.bind, links_step all opens, refused]

end Feed

/-! ### Sources with one more edge -/

namespace Diagram

/-- A diagram as a source, with an edge on one line more. -/
def printEdge (diagram : Diagram) (short : Bool) (source target : String) (link : List Char) : String :=
  diagram.print short ++ String.ofList (source.toList ++ ' ' :: (link ++ ' ' :: target.toList))

/-- An edge between two nodes that it does not declare, as if it stood nowhere. -/
def bareEdge (source target : String) (link : Link) : Statement :=
  .chain [⟨source, none, none, default⟩, ⟨target, none, none, default⟩] [link.bare] default

/-- A diagram with an edge behind its statements, as if it stood nowhere. -/
def bareWith (diagram : Diagram) (source target : String) (link : Link) : Diagram :=
  { diagram.bare with statements := diagram.bare.statements ++ [bareEdge source target link] }

/-- The text is refused because the label of a link is empty. -/
def LacksLabel (text : String) : Prop :=
  ∃ place, ofSource text = .error ⟨.parse, "Empty edge label", some place, []⟩

/-- The text is read as the diagram with an edge of the given label behind it, or refused if the label is empty. -/
def Labels (diagram : Diagram) (source target : String) (style : EdgeStyle) (head : Bool) (label : List Char)
    (text : String) : Prop :=
  if label = [] then LacksLabel text
  else ∃ read, ofSource text = .ok read ∧
    read.bare = diagram.bareWith source target ⟨style, head, String.ofList label, default⟩

/-- Both texts are read as the same diagram up to the ranges of source, or both are refused for an empty label. -/
def Agree (first second : String) : Prop :=
  (∃ read other, ofSource first = .ok read ∧ ofSource second = .ok other ∧ read.bare = other.bare) ∨
    LacksLabel first ∧ LacksLabel second

variable {diagram : Diagram} {short : Bool} {source target first second : String}
variable {link firstLabel secondLabel : List Char}

theorem bareAll_append (body more : List Statement) :
    Statement.bareAll (body ++ more) = Statement.bareAll body ++ Statement.bareAll more := by
  induction body with
  | nil => rfl
  | cons statement body ih => simp only [List.cons_append, Statement.bareAll, ih]

theorem scans_edge (isSource : isIdentifier source = true) (isTarget : isIdentifier target = true)
    {spelled : List Token → Prop} (scans : Scans link spelled) :
    Scans (source.toList ++ ' ' :: (link ++ ' ' :: target.toList)) fun ts => ∃ first vs last,
      ts = first :: (vs ++ [last]) ∧ (first.kind = .identifier ∧ first.text = source) ∧ spelled vs ∧
        last.kind = .identifier ∧ last.text = target := by
  have free (cs : List Char) : Lexeme.Free (' ' :: cs) := free_cons cs (by decide)
  have behind := scans_blank (scans_append scans (scans_blank (scans_identifier isTarget)) (free _))
  refine scans_mono (scans_append (scans_identifier isSource) behind (free _)) ?_
  rintro ts ⟨_, _, rfl, ⟨first, rfl, isFirst⟩, vs, _, rfl, isSpelled, last, rfl, isLast⟩
  exact ⟨first, vs, last, rfl, isFirst, isSpelled, isLast⟩

/-- What follows a printed diagram is read behind its statements. -/
theorem scan_printEdge (printable : diagram.isPrintable = true) (short : Bool)
    (isSource : isIdentifier source = true) (isTarget : isIdentifier target = true)
    (scans : Scans link (Labelled style head (String.ofList label))) :
    ∃ span ts body first vs last final, Opened diagram.direction span ts [] body.reverse ∧
      Statement.bareAll body = Statement.bareAll diagram.statements ∧
      (first.kind = .identifier ∧ first.text = source) ∧ Labelled style head (String.ofList label) vs ∧
      (last.kind = .identifier ∧ last.text = target) ∧ final.kind = .endOfInput ∧
      Token.scan (diagram.printEdge short source target link) = .ok (ts ++ (first :: (vs ++ [last]) ++ [final])) := by
  have lines := scans_lines diagram.statements printable _ _ (scans_edge isSource isTarget scans)
  have whole := scans_line (scans_declaration short diagram.direction) lines
  obtain ⟨ts, final, isFinal, ⟨us, line, _, rfl, isLine, declaration, rest⟩, scanned⟩ := Token.scan_of_scans whole
  obtain ⟨ws, _, body, rfl, lines, same, first, vs, last, rfl, isFirst, labelled, isLast⟩ := rest
  have blanks : ∀ blank ∈ ([] : List Token), blank.kind = .newline := by simp
  have opened := opened_lines (.declared blanks declaration rfl isLine) lines
  rw [List.append_nil] at opened
  refine ⟨_, _, body, first, vs, last, final, opened, same, isFirst, labelled, isLast, isFinal, ?_⟩
  have eq : diagram.printEdge short source target link =
      String.ofList (((if short then "graph" else "flowchart").toList ++ ' ' :: diagram.direction.name.toList) ++
        '\n' :: (Statement.printLines diagram.statements ++
          (source.toList ++ ' ' :: (link ++ ' ' :: target.toList)))) := by
    rw [printEdge, print, ← String.ofList_append]
    simp
  rw [eq, scanned]
  simp

/-- The tokens of an edge whose label is not empty. -/
theorem chain_of_labelled {first last : Token} {vs : List Token} (isFirst : first.kind = .identifier)
    (labelled : Labelled style head text vs) (isLast : last.kind = .identifier) (some : text ≠ "") :
    ∃ statement, Chain (first :: (vs ++ [last])) statement ∧
      statement.bare = bareEdge first.text last.text ⟨style, head, text, default⟩ := by
  obtain ⟨read, joint, same⟩ := joint_of_labelled labelled some
  refine ⟨_, .edges (.bare isFirst) (.cons joint (.bare isLast) .nil) (List.cons_ne_nil _ _), ?_⟩
  simp only [Statement.bare, List.map_cons, List.map_nil, same]
  rfl

theorem labels_of_scans (printable : diagram.isPrintable = true) (isSource : isIdentifier source = true)
    (isTarget : isIdentifier target = true) (scans : Scans link (Labelled style head (String.ofList label))) :
    diagram.Labels source target style head label (diagram.printEdge short source target link) := by
  obtain ⟨span, ts, body, first, vs, last, final, opened, same, ⟨isFirst, rfl⟩, labelled, ⟨isLast, rfl⟩, isFinal,
    scanned⟩ := scan_printEdge printable short isSource isTarget scans
  by_cases empty : label = []
  · subst empty
    rw [Labels, if_pos rfl]
    obtain ⟨feed, all⟩ := Feed.exists_all first (vs ++ [last] ++ [final])
    have resumes := Feed.resumes_of_opened opened feed
    obtain ⟨place, refused⟩ := Feed.statements_of_unlabelled isFirst labelled (by rw [all, List.append_assoc])
    rw [Feed.Resumes, all, refused] at resumes
    exact ⟨place.position, ofSource_of_parse_error scanned resumes⟩
  · rw [Labels, if_neg empty]
    have some : String.ofList label ≠ "" := by simpa using empty
    obtain ⟨statement, chain, isEdge⟩ := chain_of_labelled isFirst labelled isLast some
    have line : (⟨.newline, "\n", default⟩ : Token).kind = .newline := rfl
    have ended := Opened.sentence opened (.chain chain) line
    rw [← List.append_assoc, ← List.reverse_concat] at ended
    have document := Document.intro ended line isFinal
    rw [List.append_assoc] at document
    refine ⟨_, ofSource_of_ofTokens scanned (ofTokens_of_document document), ?_⟩
    simp only [bare, bareWith, bareAll_append, same, Statement.bareAll, isEdge]

/-! ### When the two say the same -/

theorem agree_iff_of_labels (isFirst : diagram.Labels source target style head firstLabel first)
    (isSecond : diagram.Labels source target style head secondLabel second) :
    Agree first second ↔ firstLabel = secondLabel := by
  have refused {text : String} {read : Diagram} (lacks : LacksLabel text) : ofSource text ≠ .ok read := by
    obtain ⟨place, lacks⟩ := lacks
    rw [lacks]
    nofun
  unfold Labels at isFirst isSecond
  split at isFirst <;> split at isSecond
  case isTrue.isTrue noFirst noSecond =>
    exact iff_of_true (.inr ⟨isFirst, isSecond⟩) (noFirst.trans noSecond.symm)
  case isTrue.isFalse noFirst some =>
    refine iff_of_false ?_ (noFirst ▸ Ne.symm some)
    obtain ⟨read, isRead, -⟩ := isSecond
    rintro (⟨_, _, isRead, -⟩ | ⟨-, lacks⟩)
    · exact refused isFirst isRead
    · exact refused lacks isRead
  case isFalse.isTrue some noSecond =>
    refine iff_of_false ?_ (noSecond ▸ some)
    obtain ⟨read, isRead, -⟩ := isFirst
    rintro (⟨_, _, -, isRead, -⟩ | ⟨lacks, -⟩)
    · exact refused isSecond isRead
    · exact refused lacks isRead
  case isFalse.isFalse =>
    obtain ⟨read, isRead, bareRead⟩ := isFirst
    obtain ⟨other, isOther, bareOther⟩ := isSecond
    constructor
    · rintro (⟨read', other', isRead', isOther', same⟩ | ⟨lacks, -⟩)
      · cases isRead.symm.trans isRead'
        cases isOther.symm.trans isOther'
        rw [bareRead, bareOther] at same
        exact String.ofList_injective (by simpa [bareWith, bareEdge, Link.bare] using same)
      · exact absurd isRead (refused lacks)
    · rintro rfl
      exact .inl ⟨read, other, isRead, isOther, bareRead.trans bareOther.symm⟩

/-- An edge label inside its link is read as its text without the blanks around it, and between bars also without the
double quotes around that. So the two places say the same exactly of a label that no double quotes enclose. -/
theorem labels_agree_iff (printable : diagram.isPrintable = true) (isSource : isIdentifier source = true)
    (isTarget : isIdentifier target = true) (oneLine : '\n' ∉ label) (noBar : '|' ∉ label)
    (noCloser : ∀ head, ¬style.closer head <:+: label) :
    let around := diagram.printEdge short source target (style.around head label)
    let beside := diagram.printEdge short source target (style.beside head label)
    diagram.Labels source target style head (Text.trimChars label) around ∧
      diagram.Labels source target style head (unquote (Text.trimChars label)) beside ∧
      (Agree around beside ↔ ¬∃ inside, Text.trimChars label = '"' :: (inside ++ ['"'])) := by
  intro around beside
  have isAround : diagram.Labels source target style head (Text.trimChars label) around :=
    labels_of_scans printable isSource isTarget (scans_around oneLine noCloser)
  have isBeside : diagram.Labels source target style head (unquote (Text.trimChars label)) beside :=
    labels_of_scans printable isSource isTarget (scans_beside oneLine noBar)
  refine ⟨isAround, isBeside, ?_⟩
  rw [agree_iff_of_labels isAround isBeside, eq_comm, unquote_eq_self_iff]

/-- A label with spaces around it and with quotes inside, on a dashed link without a head. -/
theorem labels_agree_iff_spaced :
    let label := "  the \"b\" - c".toList
    let around := (⟨.LR, default, []⟩ : Diagram).printEdge false "A" "B" (EdgeStyle.dashed.around false label)
    let beside := (⟨.LR, default, []⟩ : Diagram).printEdge false "A" "B" (EdgeStyle.dashed.beside false label)
    around = "flowchart LR\nA -.   the \"b\" - c .- B" ∧ beside = "flowchart LR\nA -.-|  the \"b\" - c| B" ∧
      '\n' ∉ label ∧ '|' ∉ label ∧ (∀ head, ¬EdgeStyle.dashed.closer head <:+: label) ∧
      (Agree around beside ↔ ¬∃ inside, Text.trimChars label = '"' :: (inside ++ ['"'])) := by
  have oneLine : '\n' ∉ "  the \"b\" - c".toList := by decide +kernel
  have noBar : '|' ∉ "  the \"b\" - c".toList := by decide +kernel
  have noCloser : ∀ head, ¬EdgeStyle.dashed.closer head <:+: "  the \"b\" - c".toList := by decide +kernel
  refine ⟨by decide +kernel, by decide +kernel, oneLine, noBar, noCloser, ?_⟩
  exact (labels_agree_iff rfl (by decide) (by decide) oneLine noBar noCloser).2.2

/-- The two places of a label between double quotes, which keeps them inside its link. -/
theorem not_agree_quoted :
    let label := "\"x\"".toList
    '\n' ∉ label ∧ '|' ∉ label ∧ (∀ head, ¬EdgeStyle.solid.closer head <:+: label) ∧
      ¬Agree "graph TD\nA -- \"x\" --> B" "graph TD\nA -->|\"x\"| B" := by
  have oneLine : '\n' ∉ "\"x\"".toList := by decide +kernel
  have noBar : '|' ∉ "\"x\"".toList := by decide +kernel
  have noCloser : ∀ head, ¬EdgeStyle.solid.closer head <:+: "\"x\"".toList := by decide +kernel
  refine ⟨oneLine, noBar, noCloser, ?_⟩
  let plain : Diagram := ⟨.TD, default, []⟩
  have isAround : plain.Labels "A" "B" .solid true "\"x\"".toList "graph TD\nA -- \"x\" --> B" := by
    have isText : plain.printEdge true "A" "B" (EdgeStyle.solid.around true "\"x\"".toList) =
        "graph TD\nA -- \"x\" --> B" := by decide +kernel
    rw [← isText]
    exact labels_of_scans rfl (by decide) (by decide) (scans_around oneLine noCloser)
  have isBeside : plain.Labels "A" "B" .solid true ['x'] "graph TD\nA -->|\"x\"| B" := by
    have isText : plain.printEdge true "A" "B" (EdgeStyle.solid.beside true "\"x\"".toList) =
        "graph TD\nA -->|\"x\"| B" := by decide +kernel
    rw [← isText]
    exact labels_of_scans rfl (by decide) (by decide) (scans_beside oneLine noBar)
  rw [agree_iff_of_labels isAround isBeside]
  decide +kernel

end Diagram
end Flowchart
