import Flowchart.Diagram.Parser
import Flowchart.Proofs.Token.Stream

/-!
The grammar of the diagram language over tokens, apart from the way it is read. A rule relates the tokens
of a phrase to the tree that they spell, spans included. Nothing here looks ahead: where a phrase ends is
decided by the rule around it.
-/
namespace Flowchart

/-- The range from the start of the first token to the end of the last. -/
def Token.range (tokens : List Token) : Span :=
  ⟨(tokens.headD default).position, (tokens.getLastD default).stop⟩

def Token.IsLabel (token : Token) : Prop :=
  token.kind = .label ∧ token.text ≠ ""

/-- A word that may open a diagram. -/
def Token.Declares (token : Token) : Prop :=
  (token.kind = .graph ∧ token.text = "graph") ∨ (token.kind = .flowchart ∧ token.text = "flowchart")

namespace Grammar

open Feed (Head Block)

/-- A node, by its id alone or with a label between the brackets of its shape. -/
inductive Mention : List Token → NodeRef → Prop where
  | bare {id : Token} : id.kind = .identifier →
      Mention [id] { id := id.text, span := Token.range [id] }
  | declared {id opener label closer : Token} {shape : Shape} : id.kind = .identifier →
      opener.Spells .openBracket shape.opener → label.IsLabel →
      closer.Spells .closeBracket shape.closer →
      Mention [id, opener, label, closer]
        { id := id.text, shape, label := label.text, span := Token.range [id, opener, label, closer] }

/-- A link, whose label stands behind it between bars or inside it. -/
inductive Joint : List Token → Link → Prop where
  | plain {arrow : Token} {style : EdgeStyle} {head : Bool} :
      arrow.Spells .arrow (style.arrow head) →
      Joint [arrow] ⟨style, head, none, Token.range [arrow]⟩
  | barred {arrow bar label close : Token} {style : EdgeStyle} {head : Bool} :
      arrow.Spells .arrow (style.arrow head) → bar.kind = .pipe → label.IsLabel → close.kind = .pipe →
      Joint [arrow, bar, label, close]
        ⟨style, head, some label.text, Token.range [arrow, bar, label, close]⟩
  | inner {opener label arrow : Token} {style : EdgeStyle} {head : Bool} :
      opener.Spells .linkStart style.opener → label.IsLabel →
      arrow.Spells .arrow (style.closer head) →
      Joint [opener, label, arrow] ⟨style, head, some label.text, Token.range [opener, label, arrow]⟩

/-- Links, each with the node behind it. -/
inductive Joints : List Token → List (Link × NodeRef) → Prop where
  | nil : Joints [] []
  | cons {ts us vs : List Token} {link : Link} {ref : NodeRef} {more : List (Link × NodeRef)} :
      Joint ts link → Mention us ref → Joints vs more →
      Joints (ts ++ (us ++ vs)) ((link, ref) :: more)

/-- A node, or several nodes joined by links. -/
inductive Chain : List Token → Statement → Prop where
  | node {ts : List Token} {ref : NodeRef} : Mention ts ref → Chain ts (.node ref (Token.range ts))
  | edges {ts us : List Token} {ref : NodeRef} {more : List (Link × NodeRef)} :
      Mention ts ref → Joints us more → more ≠ [] →
      Chain (ts ++ us)
        (.chain (ref :: more.map Prod.snd) (more.map Prod.fst) (Token.range (ts ++ us)))

/-- The head of a block. The brackets around a title may be empty, which is no title. -/
inductive Header : List Token → Head → Prop where
  | untitled {opener id : Token} : opener.kind = .subgraph → id.kind = .identifier →
      Header [opener, id] ⟨opener, id.text, none⟩
  | titled {opener id left title right : Token} : opener.kind = .subgraph → id.kind = .identifier →
      left.Spells .openBracket Shape.rectangle.opener → title.kind = .label →
      right.Spells .closeBracket Shape.rectangle.closer →
      Header [opener, id, left, title, right]
        ⟨opener, id.text, if title.text = "" then none else some title.text⟩

mutual

/-- A statement without the end of its line. -/
inductive Sentence : List Token → Statement → Prop where
  | chain {ts : List Token} {statement : Statement} : Chain ts statement → Sentence ts statement
  | block {hs ts : List Token} {line close : Token} {head : Head} {body : List Statement} :
      Header hs head → line.kind = .newline → Lines ts body → close.kind = .close →
      Sentence (hs ++ line :: (ts ++ [close]))
        (.subgraph head.id head.title body (Token.range (hs ++ line :: (ts ++ [close]))))

/-- Statements and blank lines, each with its line end. -/
inductive Lines : List Token → List Statement → Prop where
  | nil : Lines [] []
  | blank {ts : List Token} {line : Token} {body : List Statement} :
      Lines ts body → line.kind = .newline → Lines (ts ++ [line]) body
  | line {ts us : List Token} {line : Token} {body : List Statement} {statement : Statement} :
      Lines ts body → Sentence us statement → line.kind = .newline →
      Lines (ts ++ (us ++ [line])) (body ++ [statement])

end

/-- Induction over statements and lines together. -/
theorem sentence_lines_induction {P : List Token → Statement → Prop}
    {Q : List Token → List Statement → Prop}
    (chain : ∀ {ts : List Token} {statement : Statement}, Chain ts statement → P ts statement)
    (block : ∀ {hs ts : List Token} {line close : Token} {head : Head} {body : List Statement},
      Header hs head → line.kind = .newline → Q ts body → close.kind = .close →
      P (hs ++ line :: (ts ++ [close]))
        (.subgraph head.id head.title body (Token.range (hs ++ line :: (ts ++ [close])))))
    (nil : Q [] [])
    (blank : ∀ {ts : List Token} {line : Token} {body : List Statement}, Q ts body →
      line.kind = .newline → Q (ts ++ [line]) body)
    (line : ∀ {ts us : List Token} {line : Token} {body : List Statement} {statement : Statement},
      Q ts body → P us statement → line.kind = .newline →
      Q (ts ++ (us ++ [line])) (body ++ [statement])) :
    (∀ ts statement, Sentence ts statement → P ts statement) ∧ ∀ ts body, Lines ts body → Q ts body := by
  have lines : ∀ ts body, Lines ts body → Q ts body := by
    refine @Lines.rec (fun ts statement _ => P ts statement) (fun ts body _ => Q ts body)
      ?_ ?_ nil ?_ ?_
    · intro ts statement rule
      exact chain rule
    · intro hs ts first close head body header isLine _ closes inner
      exact block header isLine inner closes
    · intro ts first body _ isLine front
      exact blank front isLine
    · intro ts us first body statement _ _ isLine front last
      exact line front last isLine
  refine ⟨?_, lines⟩
  intro ts statement sentence
  cases sentence with
  | chain rule => exact chain rule
  | block header isLine inner closes => exact block header isLine (lines _ _ inner) closes

/-- Induction over the lines of one block. -/
theorem lines_induction {Q : List Token → List Statement → Prop} (nil : Q [] [])
    (blank : ∀ {ts : List Token} {line : Token} {body : List Statement}, Q ts body →
      line.kind = .newline → Q (ts ++ [line]) body)
    (line : ∀ {ts us : List Token} {line : Token} {body : List Statement} {statement : Statement},
      Q ts body → Sentence us statement → line.kind = .newline →
      Q (ts ++ (us ++ [line])) (body ++ [statement]))
    {ts : List Token} {body : List Statement} (lines : Lines ts body) : Q ts body := by
  have both := (sentence_lines_induction (P := Sentence) (Q := fun ts body => Lines ts body ∧ Q ts body)
    .chain (fun header isLine inner closes => .block header isLine inner.1 closes) ⟨.nil, nil⟩
    (fun front isLine => ⟨.blank front.1 isLine, blank front.2 isLine⟩)
    (fun front last isLine => ⟨.line front.1 last isLine, line front.2 last isLine⟩)).2
  exact (both ts body lines).2

/-- The word that opens a diagram, which has the direction TD unless it names another. -/
inductive Declaration : List Token → Direction → Prop where
  | plain {word : Token} : word.Declares → Declaration [word] .TD
  | directed {word name : Token} {direction : Direction} : word.Declares → name.kind = .identifier →
      name.text = direction.name → Declaration [word, name] direction

/-- The beginning of a diagram up to the start of a line, with the open blocks, the innermost first, and
the statements of the innermost, the latest first. -/
inductive Opened (direction : Direction) (span : Span) :
    List Token → List Block → List Statement → Prop where
  | declared {blanks ts : List Token} {line : Token} : (∀ blank ∈ blanks, blank.kind = .newline) →
      Declaration ts direction → span = Token.range ts → line.kind = .newline →
      Opened direction span (blanks ++ (ts ++ [line])) [] []
  | blank {ts : List Token} {line : Token} {blocks : List Block} {done : List Statement} :
      Opened direction span ts blocks done → line.kind = .newline →
      Opened direction span (ts ++ [line]) blocks done
  | sentence {ts us : List Token} {line : Token} {blocks : List Block} {done : List Statement}
      {statement : Statement} :
      Opened direction span ts blocks done → Sentence us statement → line.kind = .newline →
      Opened direction span (ts ++ (us ++ [line])) blocks (statement :: done)
  | header {ts hs : List Token} {line : Token} {blocks : List Block} {done : List Statement}
      {head : Head} :
      Opened direction span ts blocks done → Header hs head → line.kind = .newline →
      Opened direction span (ts ++ (hs ++ [line])) (⟨head, done⟩ :: blocks) []

/-- A diagram: all lines outside every block, where the end of the input stands for the last line end. -/
inductive Document : List Token → Diagram → Prop where
  | intro {ts : List Token} {line final : Token} {direction : Direction} {span : Span}
      {body : List Statement} :
      Opened direction span (ts ++ [line]) [] body.reverse → line.kind = .newline →
      final.kind = .endOfInput → Document (ts ++ [final]) ⟨direction, span, body⟩

/-- Tokens that some further tokens complete to a diagram. -/
def Viable (tokens : List Token) : Prop :=
  ∃ more diagram, Document (tokens ++ more) diagram

/-- Tokens that the end of the input would follow between two statements of an open block. The keyword
is that of the innermost block. -/
def Unclosed (tokens : List Token) (keyword : Token) : Prop :=
  ∃ direction span line block blocks done, line.kind = .newline ∧ block.head.opener = keyword ∧
    Opened direction span (tokens ++ [line]) (block :: blocks) done

end Grammar
end Flowchart
