/-!
The vocabulary of a flowchart: directions, node shapes and edge styles, with the brackets and arrows
that write them.
-/
namespace Flowchart

/-- The way along which ranks are stacked. -/
inductive Direction where
  | TD | TB | BT | LR | RL
  deriving DecidableEq, Repr, Inhabited

namespace Direction

def all : List Direction := [TD, TB, BT, LR, RL]

def name : Direction → String
  | TD => "TD"
  | TB => "TB"
  | BT => "BT"
  | LR => "LR"
  | RL => "RL"

def ofName? (text : String) : Option Direction :=
  all.find? (·.name == text)

/-- Ranks follow one another from left to right or from right to left. -/
def isHorizontal : Direction → Bool
  | LR | RL => true
  | _ => false

/-- Later ranks lie above or to the left of earlier ones. -/
def isReversed : Direction → Bool
  | BT | RL => true
  | _ => false

end Direction

/-- The outline of a node. -/
inductive Shape where
  | rectangle | rounded | rhombus | circle
  deriving DecidableEq, Repr, Inhabited

namespace Shape

/-- In the order in which opening brackets are tried: the longest first. -/
def all : List Shape := [circle, rectangle, rounded, rhombus]

def name : Shape → String
  | rectangle => "rectangle"
  | rounded => "rounded"
  | rhombus => "rhombus"
  | circle => "circle"

def ofName? (text : String) : Option Shape :=
  all.find? (·.name == text)

/-- The bracket that opens a label of this shape. -/
def opener : Shape → List Char
  | rectangle => ['[']
  | rounded => ['(']
  | rhombus => ['\x7b']
  | circle => ['(', '(']

/-- The bracket that closes a label of this shape. -/
def closer : Shape → List Char
  | rectangle => [']']
  | rounded => [')']
  | rhombus => ['\x7d']
  | circle => [')', ')']

def ofOpener? (text : String) : Option Shape :=
  all.find? fun shape => String.ofList shape.opener == text

theorem opener_ne_nil (shape : Shape) : shape.opener ≠ [] := by
  cases shape <;> simp [opener]

end Shape

/-- The stroke of an edge. -/
inductive EdgeStyle where
  | solid | dashed | thick
  deriving DecidableEq, Repr, Inhabited

namespace EdgeStyle

def all : List EdgeStyle := [solid, dashed, thick]

def name : EdgeStyle → String
  | solid => "solid"
  | dashed => "dashed"
  | thick => "thick"

def ofName? (text : String) : Option EdgeStyle :=
  all.find? (·.name == text)

/-- What opens a link that carries its label inside. -/
def opener : EdgeStyle → List Char
  | solid => ['-', '-']
  | dashed => ['-', '.']
  | thick => ['=', '=']

/-- What closes a link that carries its label inside, with or without an arrowhead. -/
def closer : EdgeStyle → Bool → List Char
  | solid, true => ['-', '-', '>']
  | solid, false => ['-', '-', '-']
  | dashed, true => ['.', '-', '>']
  | dashed, false => ['.', '-']
  | thick, true => ['=', '=', '>']
  | thick, false => ['=', '=', '=']

/-- A link without an inner label, with or without an arrowhead. -/
def arrow : EdgeStyle → Bool → List Char
  | dashed, head => '-' :: closer dashed head
  | style, head => closer style head

/-- Every link without an inner label, in the order in which they are tried. -/
def arrows : List (EdgeStyle × Bool) :=
  [(dashed, true), (solid, true), (solid, false), (dashed, false), (thick, true), (thick, false)]

/-- The style and arrowhead that a link or the close of one stands for. -/
def ofArrow? (text : String) : Option (EdgeStyle × Bool) :=
  arrows.find? fun (style, head) =>
    String.ofList (style.arrow head) == text || String.ofList (style.closer head) == text

theorem opener_ne_nil (style : EdgeStyle) : style.opener ≠ [] := by
  cases style <;> simp [opener]

theorem arrow_ne_nil (style : EdgeStyle) (head : Bool) : style.arrow head ≠ [] := by
  cases style <;> cases head <;> simp [arrow, closer]

end EdgeStyle
end Flowchart
