import Flowchart.Proofs.Scene.Captions
import Flowchart.Proofs.Scene.Ends
import Mathlib.Algebra.Order.Ring.Abs
import Mathlib.Data.List.Rotate

/-!
Where the edges of a scene touch the borders of its shapes. An edge ends in the middle of a side of a box, and there
every border touches its box. A loop ends at the quarters of a side, and there just rectangles do, and rounded ones
whose corners leave the quarters free.
-/
namespace Flowchart

variable {direction : Direction} {graph : Graph} {metrics : Metrics Rat} {scene : Scene Rat} {side : Side}
  {shape : ShapeBox Rat} {box : Box Rat} {point : Point Rat} {radius part : Rat}

/-- The point lies on the border of a box with rounded corners. A corner is a quarter of an ellipse that takes up the
radius of both of its sides, but never more than their halves. -/
def Box.IsOnBorder (radius : Rat) (box : Box Rat) (point : Point Rat) : Prop :=
  let across := |point.x - box.center.x|
  let down := |point.y - box.center.y|
  let wide := min radius (box.width / 2)
  let tall := min radius (box.height / 2)
  (across = box.width / 2 ∧ down ≤ box.height / 2 - tall) ∨
    (down = box.height / 2 ∧ across ≤ box.width / 2 - wide) ∨
      (box.width / 2 - wide ≤ across ∧ across ≤ box.width / 2) ∧
        (box.height / 2 - tall ≤ down ∧ down ≤ box.height / 2) ∧
          (tall * (across - (box.width / 2 - wide))) ^ 2 + (wide * (down - (box.height / 2 - tall))) ^ 2 =
            (wide * tall) ^ 2

/-- The point lies on an outline. The sides of a polygon run from corner to corner and back to the first one. -/
def Outline.IsOn (point : Point Rat) : Outline Rat → Prop
  | .circle center radius => (point.x - center.x) ^ 2 + (point.y - center.y) ^ 2 = radius ^ 2
  | .polygon corners => ∃ ends ∈ corners.zip (corners.rotate 1), ends.1.Between ends.2 point
  | .rectangle box radius => box.IsOnBorder radius point

/-- A way between two points of a half-plane stays in it. -/
theorem Point.Between.bound {start stop : Point Rat} {a b c : Rat} (between : start.Between stop point)
    (starts : a * start.x + b * start.y ≤ c) (stops : a * stop.x + b * stop.y ≤ c) :
    a * point.x + b * point.y ≤ c := by
  obtain ⟨part, nonneg, le_one, rfl⟩ := between
  have front := mul_le_mul_of_nonneg_left starts (sub_nonneg.2 le_one)
  have back := mul_le_mul_of_nonneg_left stops nonneg
  linarith

namespace Outline

/-- A polygon lies in every half-plane that its corners lie in. -/
theorem bound_of_isOn {corners : List (Point Rat)} {a b c : Rat} (isOn : (polygon corners).IsOn point)
    (within : ∀ corner ∈ corners, a * corner.x + b * corner.y ≤ c) : a * point.x + b * point.y ≤ c := by
  obtain ⟨ends, mem, between⟩ := isOn
  obtain ⟨first, second⟩ := List.of_mem_zip mem
  exact between.bound (within _ first) (within _ (List.mem_rotate.1 second))

end Outline

/-- The way from a point onwards starts there. -/
theorem Point.between_start (start stop : Point Rat) : start.Between stop start :=
  ⟨0, le_refl 0, zero_le_one, by simp⟩

theorem Box.isOnBorder_middle (width : 0 < box.width) (height : 0 < box.height) (radius : Rat) (side : Side) :
    box.IsOnBorder radius (box.middle side) := by
  have halfWidth : |box.width / 2| = box.width / 2 := abs_of_pos (by linarith)
  have halfHeight : |box.height / 2| = box.height / 2 := abs_of_pos (by linarith)
  have wide : 0 ≤ box.width / 2 - min radius (box.width / 2) := sub_nonneg.2 (min_le_right _ _)
  have tall : 0 ≤ box.height / 2 - min radius (box.height / 2) := sub_nonneg.2 (min_le_right _ _)
  cases side <;>
    simp only [IsOnBorder, middle, center, right, bottom, Coordinate.two_eq, sub_self, abs_zero, wide, tall, and_true]
  case top | left =>
    rw [sub_add_cancel_left, abs_neg]
    simp only [halfWidth, halfHeight, true_or, or_true]
  case bottom | right =>
    rw [add_sub_add_left_eq_sub, sub_half]
    simp only [halfWidth, halfHeight, true_or, or_true]

/-- On the upper and the lower side, the border is what the corners leave free. -/
theorem Box.isOnBorder_iff (height : 0 < box.height) (radius_pos : 0 < radius)
    (down : |point.y - box.center.y| = box.height / 2) (across : |point.x - box.center.x| < box.width / 2) :
    box.IsOnBorder radius point ↔ |point.x - box.center.x| ≤ box.width / 2 - min radius (box.width / 2) := by
  constructor
  · rintro (⟨edge, -⟩ | ⟨-, free⟩ | ⟨-, -, ellipse⟩)
    · exact absurd edge across.ne
    · exact free
    · have tall : 0 < min radius (box.height / 2) := lt_min radius_pos (by linarith)
      rw [down, sub_sub_cancel, add_eq_right, sq_eq_zero_iff, mul_eq_zero] at ellipse
      exact le_of_eq (sub_eq_zero.1 (ellipse.resolve_left tall.ne'))
  · exact fun free => .inr (.inl ⟨down, free⟩)

/-- No point of the rhombus in a box is far from the middle on both axes. -/
theorem Box.rhombus_bound
    (isOn : (Outline.polygon [box.middle .top, box.middle .right, box.middle .bottom, box.middle .left]).IsOn point)
    (width : 0 < box.width) (height : 0 < box.height) :
    |point.x - box.center.x| * box.height + |point.y - box.center.y| * box.width ≤ box.width * box.height / 2 := by
  have bound (a b : Rat) (across : |a| ≤ box.height) (down : |b| ≤ box.width) :
      a * point.x + b * point.y ≤ a * box.center.x + b * box.center.y + box.width * box.height / 2 := by
    have ⟨left, right⟩ := abs_le.1 across
    have ⟨above, below⟩ := abs_le.1 down
    have right := mul_le_mul_of_nonneg_right right width.le
    have left := mul_le_mul_of_nonneg_right left width.le
    have below := mul_le_mul_of_nonneg_right below height.le
    have above := mul_le_mul_of_nonneg_right above height.le
    refine Outline.bound_of_isOn isOn ?_
    simp only [List.forall_mem_cons, middle, center, Box.right, bottom, Coordinate.two_eq]
    refine ⟨?_, ?_, ?_, ?_, fun _ none => absurd none List.not_mem_nil⟩ <;> linarith
  have wide := abs_of_pos width
  have tall := abs_of_pos height
  rcases abs_choice (point.x - box.center.x) with right | left <;>
    rcases abs_choice (point.y - box.center.y) with below | above
  · have := bound box.height box.width tall.le wide.le
    rw [right, below]
    linarith
  · have := bound box.height (-box.width) tall.le (by rw [abs_neg, wide])
    rw [right, above]
    linarith
  · have := bound (-box.height) box.width (by rw [abs_neg, tall]) wide.le
    rw [left, below]
    linarith
  · have := bound (-box.height) (-box.width) (by rw [abs_neg, tall]) (by rw [abs_neg, wide])
    rw [left, above]
    linarith

theorem abs_quarter (isQuarter : part = 1 / 4 ∨ part = 3 / 4) (start : Rat) {extent : Rat} (positive : 0 < extent) :
    |start + part * extent - (start + extent / 2)| = extent / 4 := by
  rcases isQuarter with rfl | rfl
  · rw [abs_of_neg] <;> linarith
  · rw [abs_of_pos] <;> linarith

theorem abs_half (start : Rat) {extent : Rat} (positive : 0 < extent) :
    |start + extent - (start + extent / 2)| = extent / 2 := by
  rw [abs_of_pos] <;> linarith

namespace ShapeBox

/-- The box has an extent on both axes, and that of a circle the same on both. -/
structure Fitted (shape : ShapeBox Rat) : Prop where
  width_pos : 0 < shape.box.width
  height_pos : 0 < shape.box.height
  square : shape.shape = .circle → shape.box.height = shape.box.width

/-- A border touches its box in the middle of every side. -/
theorem isOn_middle (fitted : shape.Fitted) (side : Side) : shape.outline.IsOn (shape.box.middle side) := by
  obtain ⟨width, height, square⟩ := fitted
  rw [outline]
  cases isShape : shape.shape with
  | circle =>
    cases side <;>
      simp only [Outline.IsOn, Box.middle, Box.center, Box.right, Box.bottom, Coordinate.two_eq, square isShape] <;>
      ring
  | rhombus =>
    cases side with
    | top => exact ⟨_, List.mem_of_getElem? (i := 0) rfl, Point.between_start _ _⟩
    | right => exact ⟨_, List.mem_of_getElem? (i := 1) rfl, Point.between_start _ _⟩
    | bottom => exact ⟨_, List.mem_of_getElem? (i := 2) rfl, Point.between_start _ _⟩
    | left => exact ⟨_, List.mem_of_getElem? (i := 3) rfl, Point.between_start _ _⟩
  | rectangle => exact Box.isOnBorder_middle width height _ side
  | rounded => exact Box.isOnBorder_middle width height _ side

/-- Where the loops of a node start and stop: at a part of the side that faces the next node of the rank. -/
def quarter (direction : Direction) (shape : ShapeBox Rat) (part : Rat) : Point Rat :=
  if direction.isHorizontal then ⟨shape.box.x + part * shape.box.width, shape.box.bottom⟩
  else ⟨shape.box.right, shape.box.y + part * shape.box.height⟩

/-- The border of the shape touches its box at the quarters of the side that loops use. -/
def HoldsLoops (direction : Direction) (shape : ShapeBox Rat) : Prop :=
  match shape.shape with
  | .rectangle => True
  | .rounded => direction.isHorizontal = true → shape.box.height ≤ shape.box.width
  | .circle | .rhombus => False

theorem isOn_quarter_iff (fitted : shape.Fitted) (isQuarter : part = 1 / 4 ∨ part = 3 / 4) (direction : Direction) :
    shape.outline.IsOn (shape.quarter direction part) ↔ shape.HoldsLoops direction := by
  obtain ⟨width, height, square⟩ := fitted
  have area := mul_pos width height
  -- How far the point is from the middle of the box, on both axes.
  have apart : |(shape.quarter direction part).x - shape.box.center.x| =
        (if direction.isHorizontal then shape.box.width / 4 else shape.box.width / 2) ∧
      |(shape.quarter direction part).y - shape.box.center.y| =
        if direction.isHorizontal then shape.box.height / 2 else shape.box.height / 4 := by
    simp only [quarter, Box.center, Box.right, Box.bottom, Coordinate.two_eq]
    split
    · exact ⟨abs_quarter isQuarter _ width, abs_half _ height⟩
    · exact ⟨abs_half _ width, abs_quarter isQuarter _ height⟩
  generalize shape.quarter direction part = point at apart ⊢
  obtain ⟨across, down⟩ := apart
  rw [outline, HoldsLoops]
  cases isShape : shape.shape with
  | circle =>
    refine iff_of_false (fun isOn => ?_) not_false
    rw [Outline.IsOn, ← sq_abs, across, ← sq_abs (point.y - _), down, square isShape, Coordinate.two_eq] at isOn
    have area := square isShape ▸ area
    split_ifs at isOn <;> linarith
  | rhombus =>
    refine iff_of_false (fun isOn => ?_) not_false
    have bound := Box.rhombus_bound isOn width height
    rw [across, down] at bound
    split_ifs at bound <;> linarith
  | rectangle =>
    refine iff_of_true ?_ trivial
    have square (half : Rat) (positive : 0 < half) : min 0.0 half = 0 := by
      rw [Coordinate.zero_eq, min_eq_left positive.le]
    rw [Outline.IsOn, Box.IsOnBorder, across, down, square _ (by linarith), square _ (by linarith)]
    split
    · exact .inr (.inl ⟨rfl, by linarith⟩)
    · exact .inl ⟨rfl, by linarith⟩
  | rounded =>
    rw [Outline.IsOn, Coordinate.four_eq]
    cases horizontal : direction.isHorizontal with
    | false =>
      simp only [horizontal, Bool.false_eq_true, if_false] at across down
      refine iff_of_true (.inl ⟨across, ?_⟩) fun isTrue => by cases isTrue
      rw [down, min_eq_left (by linarith)]
      linarith
    | true =>
      simp only [horizontal, if_true] at across down
      rw [Box.isOnBorder_iff height (by linarith) down (by linarith), across, forall_prop_of_true rfl,
        le_sub_comm, min_le_iff]
      constructor
      · rintro (low | narrow) <;> linarith
      · exact fun low => .inl (by linarith)

end ShapeBox

namespace Placement

theorem square_of_mem (mem : shape ∈ boxes graph metrics) (isCircle : shape.shape = .circle) :
    shape.box.height = shape.box.width := by
  obtain ⟨rank, mem⟩ := mem_boxes.1 mem
  obtain ⟨band, isBand, mem⟩ := mem_rowOf.1 mem
  obtain ⟨sized, isSized, order, along, rfl⟩ := mem_placeRow mem
  rw [(band_cases isBand).2] at isSized
  obtain ⟨node, -, rfl⟩ := List.mem_map.1 isSized
  have isCircle : node.shape = .circle := isCircle
  rw [placed]
  split <;> simp only [Metrics.sized, Metrics.nodeSize, isCircle]

end Placement

namespace Connector

/-- The way of a connector starts on the border that is drawn for a shape. -/
def Leaves (shape : ShapeBox Rat) (connector : Connector Rat) : Prop :=
  ∃ start ∈ connector.points.head?, shape.outline.IsOn start

/-- The way of a connector stops on the border that is drawn for a shape. -/
def Enters (shape : ShapeBox Rat) (connector : Connector Rat) : Prop :=
  ∃ stop ∈ connector.points.getLast?, shape.outline.IsOn stop

theorem ends_loop (direction : Direction) (shape : ShapeBox Rat) (slot : Nat) :
    (loop direction shape.box slot).head? = some (shape.quarter direction (1 / 4)) ∧
      (loop direction shape.box slot).getLast? = some (shape.quarter direction (3 / 4)) := by
  rw [loop, ShapeBox.quarter, ShapeBox.quarter]
  split <;>
    simp only [List.head?_cons, List.getLast?_cons_cons, List.getLast?_singleton, Coordinate.three_eq,
      Coordinate.four_eq, div_mul_eq_mul_div, one_mul, and_self]

end Connector

namespace Scene

/-- Where the edges of a graph touch the borders that are drawn for its nodes: at both ends if the nodes differ, and for
loops if the node holds these. -/
structure Touches (graph : Graph) (scene : Scene Rat) : Prop where
  nodes : scene.shapes.map ShapeBox.node = graph.nodes
  edges : scene.connectors.map Connector.edge = graph.edges
  touches : ∀ connector ∈ scene.connectors, ∃ source target, scene.shape? connector.source = some source ∧
    scene.shape? connector.target = some target ∧
      if connector.source = connector.target then
        (connector.Leaves source ↔ source.HoldsLoops graph.direction) ∧
          (connector.Enters target ↔ source.HoldsLoops graph.direction)
      else connector.Leaves source ∧ connector.Enters target

theorem fitted_of_mem (admissible : metrics.Admissible) (laid : Scene.ofGraph graph metrics = .ok scene)
    (mem : shape ∈ scene.shapes) : shape.Fitted := by
  obtain ⟨dx, dy, shapes⟩ := shapes_of_ofGraph laid
  rw [shapes] at mem
  obtain ⟨id, known, rfl⟩ := List.mem_map.1 mem
  have isBox := (Placement.find_mem metrics known).1
  obtain ⟨rank, inRow⟩ := Placement.mem_boxes.1 isBox
  obtain ⟨width, height⟩ := Placement.size_of_mem admissible inRow
  have square := Placement.square_of_mem isBox
  exact ⟨width, height, square⟩

theorem touches_of_ofGraph (wellFormed : graph.WellFormed) (admissible : metrics.Admissible)
    (laid : Scene.ofGraph graph metrics = .ok scene) : scene.Touches graph := by
  refine ⟨nodes_of_ofGraph wellFormed.1 laid, ?edges, ?touches⟩
  case edges => exact edges_of_ofGraph wellFormed.1 laid wellFormed
  case touches =>
    intro connector mem
    obtain ⟨source, isSource, sourceId, target, isTarget, targetId, slot, count, points⟩ :=
      exists_shapes wellFormed.1 laid wellFormed mem
    have sourceFitted := fitted_of_mem admissible laid isSource
    have targetFitted := fitted_of_mem admissible laid isTarget
    have foundSource := shape?_of_mem wellFormed.1 laid isSource
    have foundTarget := shape?_of_mem wellFormed.1 laid isTarget
    rw [← sourceId, ← targetId] at points ⊢
    refine ⟨source, target, foundSource, foundTarget, ?_⟩
    split_ifs at points ⊢ with isLoop
    · obtain rfl : source = target := Option.some.inj (foundSource.symm.trans (isLoop ▸ foundTarget))
      obtain ⟨first, last⟩ := Connector.ends_loop graph.direction source slot
      rw [Connector.Leaves, Connector.Enters, points, first, last]
      simp only [Option.mem_some_iff, exists_eq_left']
      exact ⟨ShapeBox.isOn_quarter_iff sourceFitted (.inl rfl) _, ShapeBox.isOn_quarter_iff sourceFitted (.inr rfl) _⟩
    · obtain ⟨side, -, ends⟩ := exists_ends wellFormed.1 admissible laid isSource isTarget (ne_of_apply_ne _ isLoop)
      obtain ⟨first, last⟩ := Connector.ends_straight graph.direction source target slot count
      rw [← points, ends] at first last
      exact ⟨⟨_, first, ShapeBox.isOn_middle sourceFitted _⟩, ⟨_, last, ShapeBox.isOn_middle targetFitted _⟩⟩

/-- The edges of a diagram touch the shapes that they join, but for the loops of shapes that do not hold them. -/
theorem touches_ofDiagram {diagram : Diagram} (built : Graph.ofDiagram diagram = .ok graph)
    (some : graph.nodes ≠ []) (admissible : metrics.Admissible) :
    ∃ scene, Scene.ofGraph graph metrics = .ok scene ∧ scene.Touches graph := by
  have wellFormed := Graph.wellFormed_ofDiagram built
  obtain ⟨scene, laid⟩ := ofGraph_ok wellFormed (Graph.grouped_ofDiagram built) some metrics
  exact ⟨scene, laid, touches_of_ofGraph wellFormed admissible laid⟩

end Scene

/-- A circle with a loop and an edge to a rounded node with a loop. -/
def Diagram.looped : Diagram :=
  ⟨.TD, default, [.chain [⟨"A", some .circle, some "x", default⟩, ⟨"A", none, none, default⟩,
    ⟨"B", some .rounded, some "y", default⟩, ⟨"B", none, none, default⟩]
    (List.replicate 3 ⟨.solid, true, none, default⟩) default]⟩

def Graph.looped : Graph :=
  ⟨.TD, [⟨"A", "x", .circle⟩, ⟨"B", "y", .rounded⟩],
    [⟨"A", "A", none, .solid, true⟩, ⟨"A", "B", none, .solid, true⟩, ⟨"B", "B", none, .solid, true⟩], []⟩

theorem Graph.ofDiagram_looped : ofDiagram .looped = .ok looped :=
  rfl

namespace Scene

theorem touches_ofDiagram_looped : Graph.ofDiagram .looped = .ok .looped ∧ Graph.looped.nodes ≠ [] ∧
    (Metrics.standard : Metrics Rat).Admissible ∧
      ∃ scene, Scene.ofGraph .looped (Metrics.standard : Metrics Rat) = .ok scene ∧ scene.Touches .looped := by
  have some : Graph.looped.nodes ≠ [] := List.cons_ne_nil _ _
  exact ⟨Graph.ofDiagram_looped, some, Metrics.admissible_standard,
    touches_ofDiagram Graph.ofDiagram_looped some Metrics.admissible_standard⟩

/-- The loop of the circle stays away from it at both ends. -/
theorem not_touches_looped : Graph.ofDiagram .looped = .ok .looped ∧ Graph.looped.nodes ≠ [] ∧
    (Metrics.standard : Metrics Rat).Admissible ∧
      ∃ scene, Scene.ofGraph .looped (Metrics.standard : Metrics Rat) = .ok scene ∧
        ∃ connector ∈ scene.connectors, ∃ shape, scene.shape? connector.source = some shape ∧
          scene.shape? connector.target = some shape ∧ ¬connector.Leaves shape ∧ ¬connector.Enters shape := by
  have built := Graph.ofDiagram_looped
  have some : Graph.looped.nodes ≠ [] := List.cons_ne_nil _ _
  have wellFormed := Graph.wellFormed_ofDiagram built
  obtain ⟨scene, laid⟩ := ofGraph_ok wellFormed (Graph.grouped_ofDiagram built) some (Metrics.standard : Metrics Rat)
  have touches := touches_of_ofGraph wellFormed Metrics.admissible_standard laid
  refine ⟨built, some, Metrics.admissible_standard, scene, laid, ?_⟩
  obtain ⟨connector, others, split, isEdge, -⟩ := List.map_eq_cons_iff.1 touches.edges
  have mem : connector ∈ scene.connectors := split ▸ List.mem_cons_self
  obtain ⟨source, target, foundSource, foundTarget, ends⟩ := touches.touches connector mem
  have isSource : connector.source = "A" := congrArg Edge.source isEdge
  have isTarget : connector.target = "A" := congrArg Edge.target isEdge
  have same : source = target := by
    rw [isSource] at foundSource
    rw [isTarget, foundSource] at foundTarget
    exact Option.some.inj foundTarget
  subst same
  rw [if_pos (isSource.trans isTarget.symm)] at ends
  have isCircle : source.shape = .circle := by
    have isNode : source.node ∈ Graph.looped.nodes :=
      touches.nodes ▸ List.mem_map_of_mem (List.mem_of_find?_eq_some foundSource)
    have found := List.find?_some foundSource
    have isId : source.node.id = "A" := (beq_iff_eq.1 found).trans isSource
    rcases List.mem_pair.1 isNode with same | same
    · exact congrArg Node.shape same
    · exact absurd (isId ▸ congrArg Node.id same) (by decide)
  have free : ¬source.HoldsLoops .TD := by
    rw [ShapeBox.HoldsLoops, isCircle]
    exact id
  exact ⟨connector, mem, source, foundSource, foundTarget, mt ends.1.1 free, mt ends.2.1 free⟩

end Scene
end Flowchart
