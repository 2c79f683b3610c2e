import Flowchart.Position
import Flowchart.Shape

/-!
Diagrams as they are written: a declaration and a list of statements, each with the range of source it
was read from. Ids may be mentioned before they are declared, and nothing is resolved yet.
-/
namespace Flowchart

/-- A mention of a node, which declares the node if it gives a shape. -/
structure NodeRef where
  id : String
  shape : Option Shape := none
  label : Option String := none
  span : Span
  deriving DecidableEq, Repr, Inhabited

/-- The operator between two nodes of a chain. -/
structure Link where
  style : EdgeStyle := .solid
  head : Bool := true
  label : Option String := none
  span : Span
  deriving DecidableEq, Repr, Inhabited

/-- A statement of a diagram or of a block. In a chain, each link joins the nodes at its own and the
next place. -/
inductive Statement where
  | node (ref : NodeRef) (span : Span)
  | chain (nodes : List NodeRef) (links : List Link) (span : Span)
  | subgraph (id : String) (title : Option String) (body : List Statement) (span : Span)
  deriving Repr, Inhabited

namespace Statement

def span : Statement → Span
  | node _ span => span
  | chain _ _ span => span
  | subgraph _ _ _ span => span

end Statement

/-- A whole diagram; `span` is the range of its declaration. -/
structure Diagram where
  direction : Direction := .TD
  span : Span
  statements : List Statement
  deriving Repr, Inhabited

end Flowchart
