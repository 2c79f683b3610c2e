import Flowchart.Diagram
import Flowchart.Token.Lexeme

/-!
Diagrams written out again: the declaration on the first line and then one statement a line. A label
stands between double quotes, so that it may hold nearly anything.
-/
namespace Flowchart

/-- A word that may name a node or a block. -/
def isIdentifier (id : String) : Bool :=
  id ≠ "" && id.toList.all Lexeme.isWordChar && !(Token.keywords.map Prod.fst).contains id

/-- A text that may stand between double quotes. -/
def isQuotable (label : String) : Bool :=
  label ≠ "" && label.toList.all fun c => c ≠ '"' && c ≠ '\n'

/-- A text that may stand between bars. -/
def isBarrable (label : String) : Bool :=
  label ≠ "" && label.toList.all fun c => c ≠ '|' && c ≠ '\n'

def quote (label : String) : List Char :=
  '"' :: label.toList ++ ['"']

namespace NodeRef

/-- The reference as if it stood nowhere. -/
def bare (ref : NodeRef) : NodeRef :=
  { ref with span := default }

def isPrintable (ref : NodeRef) : Bool :=
  isIdentifier ref.id &&
    match ref.shape, ref.label with
    | none, none => true
    | some _, some label => isQuotable label
    | _, _ => false

def print (ref : NodeRef) : List Char :=
  ref.id.toList ++
    match ref.shape, ref.label with
    | some shape, some label => shape.opener ++ (quote label ++ shape.closer)
    | _, _ => []

end NodeRef

namespace Link

def bare (link : Link) : Link :=
  { link with span := default }

def isPrintable (link : Link) : Bool :=
  link.label.all isBarrable

def print (link : Link) : List Char :=
  link.style.arrow link.head ++
    match link.label with
    | some label => '|' :: (quote label ++ ['|'])
    | none => []

end Link

namespace Statement

def opening : List Char := "subgraph".toList

def closing : List Char := "end".toList

/-- The title of a block behind its id. -/
def printTitle : Option String → List Char
  | some title => ' ' :: (Shape.rectangle.opener ++ (quote title ++ Shape.rectangle.closer))
  | none => []

def printSteps (steps : List (Link × NodeRef)) : List Char :=
  steps.flatMap fun (link, ref) => ' ' :: (link.print ++ ' ' :: ref.print)

def printChain : List NodeRef → List Link → List Char
  | [], _ => []
  | first :: nodes, links => first.print ++ printSteps (links.zip nodes)

mutual

def bare : Statement → Statement
  | node ref _ => node ref.bare default
  | chain nodes links _ => chain (nodes.map NodeRef.bare) (links.map Link.bare) default
  | subgraph id title body _ => subgraph id title (bareAll body) default

def bareAll : List Statement → List Statement
  | [] => []
  | statement :: body => statement.bare :: bareAll body

end

mutual

def isPrintable : Statement → Bool
  | node ref _ => ref.isPrintable
  | chain nodes links _ => 2 ≤ nodes.length && nodes.length = links.length + 1 &&
    nodes.all NodeRef.isPrintable && links.all Link.isPrintable
  | subgraph id title body _ => isIdentifier id && title.all isQuotable && arePrintable body

def arePrintable : List Statement → Bool
  | [] => true
  | statement :: body => statement.isPrintable && arePrintable body

end

mutual

def print : Statement → List Char
  | node ref _ => ref.print
  | chain nodes links _ => printChain nodes links
  | subgraph id title body _ => opening ++ ' ' :: (id.toList ++ (printTitle title ++
    '\n' :: (printLines body ++ closing)))

def printLines : List Statement → List Char
  | [] => []
  | statement :: body => statement.print ++ '\n' :: printLines body

end

end Statement

namespace Diagram

def bare (diagram : Diagram) : Diagram :=
  { diagram with span := default, statements := Statement.bareAll diagram.statements }

/-- Every id is an identifier, every label fits between its delimiters, a node has a shape just when it
has a label, and a chain of nodes has a link between any two neighbours. -/
def isPrintable (diagram : Diagram) : Bool :=
  Statement.arePrintable diagram.statements

/-- A diagram as a source, whose declaration opens with either word for it. -/
def print (short : Bool) (diagram : Diagram) : String :=
  String.ofList ((if short then "graph" else "flowchart").toList ++ ' ' :: (diagram.direction.name.toList ++
    '\n' :: Statement.printLines diagram.statements))

end Diagram
end Flowchart
