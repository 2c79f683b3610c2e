import Flowchart.Number.Coordinate

/-!
The measures that a layout depends on, in units of the picture.
-/
namespace Flowchart

/-- Sizes and distances of a picture. -/
structure Metrics (α : Type) where
  fontSize : α
  nodeWidth : α
  nodeHeight : α
  nodeGap : α
  rankGap : α
  padding : α
  labelPadding : α
  deriving Repr, Inhabited

namespace Metrics

variable {α : Type} [Coordinate α]

/-- The measures that hold unless others are chosen. -/
def standard : Metrics α :=
  ⟨14.0, 120.0, 48.0, 40.0, 60.0, 24.0, 14.0⟩

def charWidth (metrics : Metrics α) : α :=
  metrics.fontSize * 0.6

/-- The estimated width of a text on one line. -/
def textWidth (metrics : Metrics α) (text : String) : α :=
  (text.length : α) * metrics.charWidth

/-- The height of a line with the space around it. -/
def lineHeight (metrics : Metrics α) : α :=
  metrics.fontSize + 6.0

/-- Width and height of the background behind the label of an edge. -/
def edgeLabelSize (metrics : Metrics α) (label : String) : α × α :=
  (metrics.textWidth label + 8.0, metrics.lineHeight)

/-- Sizes are positive and distances are not negative. -/
structure Admissible (metrics : Metrics α) : Prop where
  fontSize : 0.0 < metrics.fontSize
  nodeWidth : 0.0 < metrics.nodeWidth
  nodeHeight : 0.0 < metrics.nodeHeight
  nodeGap : 0.0 ≤ metrics.nodeGap
  rankGap : 0.0 ≤ metrics.rankGap
  padding : 0.0 ≤ metrics.padding
  labelPadding : 0.0 ≤ metrics.labelPadding

end Metrics
end Flowchart
