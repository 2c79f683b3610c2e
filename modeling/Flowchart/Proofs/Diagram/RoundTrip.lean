import Flowchart.Proofs.Diagram.Acceptance
import Flowchart.Proofs.Diagram.Printing
import Flowchart.Proofs.Token.Writing

/-!
A printed diagram is read back as it was, up to the ranges of source. The scanner finds the tokens of a
derivation in the printed text, and the reader reads whatever has a derivation.
-/
namespace Flowchart

open Lexeme (Free)
open Token (Scans scans_mono scans_nil scans_blank scans_line scans_append scans_lexeme)
open Grammar

theorem free_cons {c : Char} (cs : List Char) (free : Lexeme.isWordChar c = false ∧ c ≠ '>') :
    Free (c :: cs) := by
  intro d mem
  cases mem
  exact free

theorem free_opener (shape : Shape) (cs : List Char) : Free (shape.opener ++ cs) := by
  cases shape <;> exact free_cons _ (by decide)

theorem scans_word {word : String} (isWord : word.toList.all Lexeme.isWordChar = true) (some : word ≠ "") :
    Scans word.toList fun ts => ∃ t, ts = [t] ∧ t.kind = Token.kindOfWord word ∧ t.text = word := by
  have isWord := List.all_eq_true.1 isWord
  cases eq : word.toList with
  | nil => exact absurd (String.toList_eq_nil_iff.1 eq) some
  | cons c cs =>
    rw [eq] at isWord
    refine scans_mono (scans_lexeme (Lexeme.readable_word isWord)) ?_
    rintro ts ⟨at_, rfl⟩
    have text : String.ofList (c :: cs) = word := by rw [← eq, String.ofList_toList]
    exact ⟨_, rfl, by rw [← text], text⟩

theorem scans_identifier {id : String} (isId : isIdentifier id = true) :
    Scans id.toList fun ts => ∃ t, ts = [t] ∧ t.kind = .identifier ∧ t.text = id := by
  simp only [isIdentifier, Bool.and_eq_true, decide_eq_true_eq, Bool.not_eq_true'] at isId
  obtain ⟨⟨some, isWord⟩, notKeyword⟩ := isId
  have kind : Token.kindOfWord id = .identifier := by
    simp only [Token.keywords, List.map_cons, List.map_nil, List.contains_eq_mem, List.mem_cons,
      List.not_mem_nil, or_false, decide_eq_false_iff_not, not_or] at notKeyword
    obtain ⟨notGraph, notFlowchart, notSubgraph, notEnd⟩ := notKeyword
    simp [Token.kindOfWord, Token.keywords, List.lookup_cons, beq_false_of_ne, notGraph, notFlowchart, notSubgraph,
      notEnd]
  rw [← kind]
  exact scans_word isWord some

theorem scans_label (shape : Shape) {label : String} (fits : isQuotable label = true) :
    Scans (shape.opener ++ (quote label ++ shape.closer)) fun ts =>
      ∃ opener inner closer, ts = [opener, inner, closer] ∧ opener.Spells .openBracket shape.opener ∧
        inner.IsLabel ∧ inner.text = label ∧ closer.Spells .closeBracket shape.closer := by
  simp only [isQuotable, Bool.and_eq_true, decide_eq_true_eq, List.all_eq_true] at fits
  have chars : shape.opener ++ (quote label ++ shape.closer) =
      (Lexeme.quotedLabel shape [] label.toList []).chars := by simp [quote, Lexeme.chars]
  rw [chars]
  refine scans_mono (scans_lexeme (Lexeme.readable_quotedLabel shape fits.2)) ?_
  rintro ts ⟨at_, rfl⟩
  have text : String.ofList label.toList = label := String.ofList_toList
  have some : String.ofList label.toList ≠ "" := by rw [text]; exact fits.1
  exact ⟨_, _, _, rfl, ⟨rfl, rfl⟩, ⟨rfl, some⟩, text, ⟨rfl, rfl⟩⟩

theorem scans_mention {ref : NodeRef} (printable : ref.isPrintable = true) :
    Scans ref.print fun ts => ∃ read, Mention ts read ∧ read.bare = ref.bare := by
  obtain ⟨id, shape, label, span⟩ := ref
  rw [NodeRef.isPrintable, Bool.and_eq_true] at printable
  obtain ⟨isId, fits⟩ := printable
  cases shape with
  | none =>
    cases label with
    | some label => cases fits
    | none =>
      have word := scans_identifier isId
      rw [NodeRef.print]
      dsimp only
      rw [List.append_nil]
      refine scans_mono word ?_
      rintro ts ⟨t, rfl, kind, rfl⟩
      exact ⟨_, .bare kind, rfl⟩
  | some shape =>
    cases label with
    | none => cases fits
    | some label =>
      refine scans_mono (scans_append (scans_identifier isId) (scans_label shape fits) (free_opener shape _)) ?_
      rintro ts ⟨us, vs, rfl, ⟨t, rfl, kind, rfl⟩, opener, inner, closer, rfl, opens, isLabel, rfl, closes⟩
      exact ⟨_, .declared kind opens isLabel closes, rfl⟩

theorem trimChars_quote (label : String) : Text.trimChars (quote label) = quote label := by
  have notBlank : Text.isBlank '"' = false := by decide
  simp [Text.trimChars, Text.dropTail, quote, notBlank]

theorem unquote_quote (label : String) : unquote (quote label) = label.toList := by
  simp [unquote, quote]

theorem scans_barred {label : String} (fits : isBarrable label = true) :
    Scans ('|' :: (quote label ++ ['|'])) fun ts =>
      ∃ opener inner closer, ts = [opener, inner, closer] ∧ opener.kind = .pipe ∧ inner.IsLabel ∧
        inner.text = label ∧ closer.kind = .pipe := by
  simp only [isBarrable, Bool.and_eq_true, decide_eq_true_eq, List.all_eq_true] at fits
  have plain : ∀ c ∈ quote label, c ≠ '|' ∧ c ≠ '\n' := by
    intro c mem
    simp only [quote, List.cons_append, List.mem_cons, List.mem_append, List.not_mem_nil, or_false] at mem
    rcases mem with rfl | mem | rfl
    · decide
    · exact fits.2 c mem
    · decide
  refine scans_mono (scans_lexeme (Lexeme.readable_pipeLabel plain)) ?_
  rintro ts ⟨at_, rfl⟩
  have text : String.ofList (unquote (Text.trimChars (quote label))) = label := by
    rw [trimChars_quote, unquote_quote, String.ofList_toList]
  have some : String.ofList (unquote (Text.trimChars (quote label))) ≠ "" := by rw [text]; exact fits.1
  exact ⟨_, _, _, rfl, rfl, ⟨rfl, some⟩, text, rfl⟩

theorem scans_joint {link : Link} (printable : link.isPrintable = true) :
    Scans link.print fun ts => ∃ read, Joint ts read ∧ read.bare = link.bare := by
  obtain ⟨style, head, label, span⟩ := link
  have arrow := scans_lexeme (Lexeme.readable_arrow style head)
  cases label with
  | none =>
    rw [Link.print]
    dsimp only
    rw [List.append_nil]
    refine scans_mono arrow ?_
    rintro ts ⟨at_, rfl⟩
    exact ⟨_, .plain ⟨rfl, rfl⟩, rfl⟩
  | some label =>
    refine scans_mono (scans_append arrow (scans_barred printable) (free_cons _ (by decide))) ?_
    rintro ts ⟨us, vs, rfl, ⟨at_, rfl⟩, opener, inner, closer, rfl, isBar, isLabel, rfl, isClose⟩
    exact ⟨_, .barred ⟨rfl, rfl⟩ isBar isLabel isClose, rfl⟩

/-- A link and the node behind it as if they stood nowhere. -/
def bareStep : Link × NodeRef → Link × NodeRef :=
  Prod.map Link.bare NodeRef.bare

theorem map_bareStep (steps : List (Link × NodeRef)) :
    (steps.map bareStep).map Prod.fst = (steps.map Prod.fst).map Link.bare ∧
      (steps.map bareStep).map Prod.snd = (steps.map Prod.snd).map NodeRef.bare := by
  simp only [List.map_map]
  exact ⟨rfl, rfl⟩

theorem scans_steps {steps : List (Link × NodeRef)}
    (printable : ∀ step ∈ steps, step.1.isPrintable = true ∧ step.2.isPrintable = true) :
    Scans (Statement.printSteps steps) fun ts =>
      ∃ more, Joints ts more ∧ more.map bareStep = steps.map bareStep := by
  induction steps with
  | nil =>
    refine scans_mono scans_nil ?_
    rintro ts rfl
    exact ⟨[], .nil, rfl⟩
  | cons step steps ih =>
    obtain ⟨link, ref⟩ := step
    obtain ⟨linkFits, refFits⟩ := printable _ List.mem_cons_self
    have free : Free (Statement.printSteps steps) := by
      cases steps with
      | nil => exact fun c mem => by cases mem
      | cons => exact free_cons _ (by decide)
    have behind := scans_append (scans_mention refFits)
      (ih fun step mem => printable step (List.mem_cons_of_mem _ mem)) free
    have whole := scans_blank (scans_append (scans_joint linkFits) (scans_blank behind)
      (free_cons _ (by decide)))
    have eq : Statement.printSteps ((link, ref) :: steps) =
        ' ' :: (link.print ++ ' ' :: (ref.print ++ Statement.printSteps steps)) := by
      simp [Statement.printSteps]
    rw [eq]
    refine scans_mono whole ?_
    rintro ts ⟨us, vs, rfl, ⟨readLink, joint, sameLink⟩, _, ws, rfl, ⟨readRef, mention, sameRef⟩, more, joints,
      same⟩
    refine ⟨(readLink, readRef) :: more, .cons joint mention joints, ?_⟩
    rw [List.map_cons, List.map_cons, same]
    simp only [bareStep, Prod.map, sameLink, sameRef]

theorem scans_chain {first : NodeRef} {nodes : List NodeRef} {links : List Link} {span : Span}
    (printable : (Statement.chain (first :: nodes) links span).isPrintable = true) :
    Scans (first.print ++ Statement.printSteps (links.zip nodes)) fun ts =>
      ∃ read, Chain ts read ∧ read.bare = (Statement.chain (first :: nodes) links span).bare := by
  simp only [Statement.isPrintable, Bool.and_eq_true, decide_eq_true_eq, List.all_eq_true,
    List.length_cons] at printable
  obtain ⟨⟨⟨several, sizes⟩, nodesFit⟩, linksFit⟩ := printable
  have sameSize : links.length = nodes.length := by omega
  have steps : ∀ step ∈ links.zip nodes, step.1.isPrintable = true ∧ step.2.isPrintable = true := by
    intro step mem
    obtain ⟨isLink, isNode⟩ := List.of_mem_zip mem
    exact ⟨linksFit _ isLink, nodesFit _ (List.mem_cons_of_mem _ isNode)⟩
  have free : Free (Statement.printSteps (links.zip nodes)) := by
    cases links.zip nodes with
    | nil => exact fun c mem => by cases mem
    | cons => exact free_cons _ (by decide)
  refine scans_mono (scans_append (scans_mention (nodesFit first List.mem_cons_self)) (scans_steps steps)
    free) ?_
  rintro ts ⟨us, vs, rfl, ⟨ref, mention, sameRef⟩, more, joints, same⟩
  have some : more ≠ [] := by
    rintro rfl
    have size := congrArg List.length same
    simp only [List.length_map, List.length_nil, List.length_zip] at size
    omega
  have arrows : (more.map Prod.fst).map Link.bare = links.map Link.bare := by
    rw [← (map_bareStep more).1, same, (map_bareStep _).1, List.map_fst_zip (Nat.le_of_eq sameSize)]
  have refs : (more.map Prod.snd).map NodeRef.bare = nodes.map NodeRef.bare := by
    rw [← (map_bareStep more).2, same, (map_bareStep _).2, List.map_snd_zip (Nat.le_of_eq sameSize.symm)]
  refine ⟨_, .edges mention joints some, ?_⟩
  simp only [Statement.bare, List.map_cons, sameRef, refs, arrows]

theorem scans_keyword {word : String} {kind : Token.Kind} (isWord : word.toList.all Lexeme.isWordChar = true)
    (some : word ≠ "") (isKind : Token.kindOfWord word = kind) :
    Scans word.toList fun ts => ∃ t, ts = [t] ∧ t.kind = kind ∧ t.text = word :=
  isKind ▸ scans_word isWord some

theorem scans_header {id : String} {title : Option String} (isId : isIdentifier id = true)
    (fits : title.all isQuotable = true) :
    Scans (Statement.opening ++ ' ' :: (id.toList ++ Statement.printTitle title)) fun ts =>
      ∃ head, Header ts head ∧ head.id = id ∧ head.title = title := by
  have opener := scans_keyword (by decide) (by decide) (show Token.kindOfWord "subgraph" = .subgraph by decide)
  have word := scans_identifier isId
  cases title with
  | none =>
    rw [Statement.printTitle, List.append_nil]
    refine scans_mono (scans_append opener (scans_blank word) (free_cons _ (by decide))) ?_
    rintro ts ⟨us, vs, rfl, ⟨t, rfl, opens, -⟩, id, rfl, kind, rfl⟩
    exact ⟨_, .untitled opens kind, rfl, rfl⟩
  | some title =>
    have label := scans_blank (scans_label .rectangle fits)
    have named := scans_blank (scans_append word label (free_cons _ (by decide)))
    refine scans_mono (scans_append opener named (free_cons _ (by decide))) ?_
    rintro ts ⟨us, vs, rfl, ⟨t, rfl, opens, -⟩, _, ws, rfl, ⟨id, rfl, kind, rfl⟩, left, inner, right, rfl, isLeft,
      isLabel, rfl, isRight⟩
    exact ⟨_, .titled opens kind isLeft isLabel.1 isRight, rfl, if_neg isLabel.2⟩

theorem lines_append {ts us : List Token} {body more : List Statement} (front : Lines ts body)
    (back : Lines us more) : Lines (ts ++ us) (body ++ more) := by
  refine lines_induction (Q := fun us more => Lines (ts ++ us) (body ++ more)) ?_ ?_ ?_ back
  · simpa using front
  · intro us line more lines isLine
    simpa using Lines.blank lines isLine
  · intro us vs line more statement lines sentence isLine
    simpa using Lines.line lines sentence isLine

/-- The text is scanned to the lines of the statements, up to their ranges, in front of anything that
is scanned. -/
def ScansLines (cs : List Char) (body : List Statement) : Prop :=
  ∀ (ds : List Char) (spelled : List Token → Prop), Scans ds spelled →
    Scans (cs ++ ds) fun ts => ∃ us vs read, ts = us ++ vs ∧ Lines us read ∧
      Statement.bareAll read = Statement.bareAll body ∧ spelled vs

mutual

theorem scans_statement : ∀ statement : Statement, statement.isPrintable = true →
    Scans statement.print fun ts => ∃ read, Sentence ts read ∧ read.bare = statement.bare
  | .node ref span, printable => by
    refine scans_mono (scans_mention printable) ?_
    rintro ts ⟨read, mention, same⟩
    exact ⟨_, .chain (.node mention), by simp only [Statement.bare, same]⟩
  | .chain [] links span, printable => by simp [Statement.isPrintable] at printable
  | .chain (first :: nodes) links span, printable => by
    refine scans_mono (scans_chain printable) ?_
    rintro ts ⟨read, chain, same⟩
    exact ⟨read, .chain chain, same⟩
  | .subgraph id title body span, printable => by
    simp only [Statement.isPrintable, Bool.and_eq_true] at printable
    obtain ⟨⟨isId, fits⟩, bodyFits⟩ := printable
    have close := scans_keyword (by decide) (by decide) (show Token.kindOfWord "end" = .close by decide)
    have inside := scans_lines body bodyFits _ _ close
    have eq : (Statement.subgraph id title body span).print =
        (Statement.opening ++ ' ' :: (id.toList ++ Statement.printTitle title)) ++
          '\n' :: (Statement.printLines body ++ Statement.closing) := by
      simp [Statement.print]
    rw [eq]
    refine scans_mono (scans_line (scans_header isId fits) inside) ?_
    rintro ts ⟨us, line, vs, rfl, isLine, ⟨head, header, rfl, rfl⟩, ws, _, read, rfl, lines, same, t, rfl, closes, -⟩
    exact ⟨_, .block header isLine lines closes, by simp only [Statement.bare, same]⟩

theorem scans_lines : ∀ body : List Statement, Statement.arePrintable body = true →
    ScansLines (Statement.printLines body) body
  | [], _ => by
    intro ds spelled scans
    refine scans_mono scans ?_
    intro ts isSpelled
    exact ⟨[], ts, [], rfl, .nil, rfl, isSpelled⟩
  | statement :: body, printable => by
    intro ds spelled scans
    simp only [Statement.arePrintable, Bool.and_eq_true] at printable
    have front := scans_statement statement printable.1
    have back := scans_lines body printable.2 ds spelled scans
    have eq : Statement.printLines (statement :: body) ++ ds =
        statement.print ++ '\n' :: (Statement.printLines body ++ ds) := by
      simp [Statement.printLines]
    rw [eq]
    refine scans_mono (scans_line front back) ?_
    rintro ts ⟨us, line, _, rfl, isLine, ⟨first, sentence, sameFirst⟩, vs, ws, read, rfl, lines, same, isSpelled⟩
    refine ⟨us ++ line :: vs, ws, first :: read, by simp, ?_, ?_, isSpelled⟩
    · simpa using lines_append (.line .nil sentence isLine) lines
    · simp only [Statement.bareAll, sameFirst, same]

end

namespace Diagram

theorem opened_lines {direction : Direction} {span : Span} {ts us : List Token} {done body : List Statement}
    (opened : Opened direction span ts [] done) (lines : Lines us body) :
    Opened direction span (ts ++ us) [] (body.reverse ++ done) := by
  refine lines_induction (Q := fun us body => Opened direction span (ts ++ us) [] (body.reverse ++ done))
    ?_ ?_ ?_ lines
  · simpa using opened
  · intro us line body opened isLine
    simpa using Opened.blank opened isLine
  · intro us vs line body statement opened sentence isLine
    simpa using Opened.sentence opened sentence isLine

theorem scans_declaration (short : Bool) (direction : Direction) :
    Scans ((if short then "graph" else "flowchart").toList ++ ' ' :: direction.name.toList) fun ts =>
      Declaration ts direction := by
  have word : Scans (if short then "graph" else "flowchart").toList fun ts =>
      ∃ t, ts = [t] ∧ t.Declares := by
    cases short with
    | true =>
      refine scans_mono (scans_keyword (by decide) (by decide)
        (show Token.kindOfWord "graph" = .graph by decide)) ?_
      rintro ts ⟨t, rfl, declares⟩
      exact ⟨t, rfl, .inl declares⟩
    | false =>
      refine scans_mono (scans_keyword (by decide) (by decide)
        (show Token.kindOfWord "flowchart" = .flowchart by decide)) ?_
      rintro ts ⟨t, rfl, declares⟩
      exact ⟨t, rfl, .inr declares⟩
  have name : isIdentifier direction.name = true := by cases direction <;> decide
  refine scans_mono (scans_append word (scans_blank (scans_identifier name)) (free_cons _ (by decide))) ?_
  rintro ts ⟨us, vs, rfl, ⟨t, rfl, declares⟩, name, rfl, isId, text⟩
  exact .directed declares isId text

/-- Reading a printed diagram gives it back up to the ranges of source. -/
theorem ofSource_print {diagram : Diagram} (printable : diagram.isPrintable = true) (short : Bool) :
    ∃ read, ofSource (diagram.print short) = .ok read ∧ read.bare = diagram.bare := by
  have lines := scans_lines diagram.statements printable [] _ scans_nil
  have whole := scans_line (scans_declaration short diagram.direction) lines
  obtain ⟨ts, final, isFinal, ⟨us, line, _, rfl, isLine, declaration, rest⟩, scanned⟩ := Token.scan_of_scans whole
  obtain ⟨vs, _, body, rfl, lines, same, rfl⟩ := rest
  have eq : diagram.print short = String.ofList (((if short then "graph" else "flowchart").toList ++
      ' ' :: diagram.direction.name.toList) ++ '\n' :: (Statement.printLines diagram.statements ++ [])) := by
    simp [print]
  have blanks : ∀ blank ∈ ([] : List Token), blank.kind = .newline := by simp
  have opened := opened_lines (.declared blanks declaration rfl isLine) lines
  have ended := Opened.blank opened isLine
  rw [List.append_nil] at ended
  have document := Document.intro ended isLine isFinal
  refine ⟨⟨diagram.direction, Token.range us, body⟩, ?_, ?_⟩
  · have read := ofTokens_of_document document
    simp only [List.nil_append, List.append_assoc, List.cons_append, List.append_nil] at read scanned
    simp only [eq, List.append_assoc, List.cons_append, List.append_nil]
    exact ofSource_of_ofTokens scanned read
  · simp only [bare, same]

/-- A diagram with a block in a block, and labels that hold brackets, an arrow and a comment mark. -/
def nested : Diagram :=
  ⟨.LR, default,
    [.subgraph "outer" (some "two] end") [.subgraph "inner" none [] default] default,
      .chain [⟨"a", some .circle, some "%% )) ", default⟩, ⟨"b_1", none, none, default⟩]
        [⟨.dashed, false, some "\"-->\"", default⟩] default]⟩

theorem ofSource_print_nested :
    nested.isPrintable = true ∧
      ∃ read, ofSource (nested.print true) = .ok read ∧ read.bare = nested.bare := by
  have printable : nested.isPrintable = true := by decide
  exact ⟨printable, ofSource_print printable true⟩

end Diagram
end Flowchart
