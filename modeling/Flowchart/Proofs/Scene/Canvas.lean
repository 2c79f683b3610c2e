import Flowchart.Proofs.Scene.Arrangement
import Flowchart.Scene.Drawing

/-!
The canvas fits what is drawn on it: everything lies within the padding, and each side of the frame that the padding
leaves is touched by something.
-/
namespace Flowchart

open Layout (Content)

variable {metrics : Metrics Rat} {graph : Graph} {scene : Scene Rat} {side : Side} {dx dy : Rat}

/-- A point as a box without extent. -/
def Point.box (point : Point Rat) : Box Rat :=
  ⟨point.x, point.y, 0, 0⟩

namespace Box

/-- Where a side of a box lies on its axis. -/
def edge (box : Box Rat) : Side → Rat
  | .top => box.y
  | .bottom => box.bottom
  | .left => box.x
  | .right => box.right

/-- The sides of a box are in order on both axes. -/
def IsProper (box : Box Rat) : Prop :=
  0 ≤ box.width ∧ 0 ≤ box.height

/-- No part of a box lies outside another one. -/
structure Within (box frame : Box Rat) : Prop where
  left : frame.edge .left ≤ box.edge .left
  right : box.edge .right ≤ frame.edge .right
  top : frame.edge .top ≤ box.edge .top
  bottom : box.edge .bottom ≤ frame.edge .bottom

/-- How far a move goes along the axis of a side. -/
def travel (dx dy : Rat) : Side → Rat
  | .top | .bottom => dy
  | .left | .right => dx

theorem edge_shift (box : Box Rat) (side : Side) :
    (box.shift dx dy).edge side = box.edge side + travel dx dy side := by
  cases side <;> simp only [edge, travel, shift, right, bottom]
  · ring
  · ring

end Box

namespace Connector

/-- What is seen of a connector: its points and the background of its label. -/
def drawn (metrics : Metrics Rat) (connector : Connector Rat) : List (Box Rat) :=
  connector.points.map Point.box ++ (connector.caption?.map (Caption.background metrics)).toList

/-- Where the bounds of a label lie on the axis of a side. -/
def bound (bounds : (Rat × Rat) × (Rat × Rat)) : Side → Rat
  | .top => bounds.1.2
  | .bottom => bounds.2.2
  | .left => bounds.1.1
  | .right => bounds.2.1

variable {connector : Connector Rat}

theorem bound_background (caption : Caption Rat) (side : Side) :
    (caption.background metrics).edge side = bound
      ((caption.place.x - (metrics.edgeLabelSize caption.text).1 / 2.0,
        caption.place.y - (metrics.edgeLabelSize caption.text).2 / 2.0),
        caption.place.x + (metrics.edgeLabelSize caption.text).1 / 2.0,
        caption.place.y + (metrics.edgeLabelSize caption.text).2 / 2.0) side := by
  cases side <;> simp only [Box.edge, bound, Caption.background, Box.right, Box.bottom, Coordinate.two_eq]
  · ring
  · ring

/-- The bounds of a label are those of its background, or of a point where none is shown. -/
theorem labelBounds_cases (metrics : Metrics Rat) (some : connector.points ≠ []) :
    (∃ caption, connector.caption? = Option.some caption ∧
        ∀ side, bound (connector.labelBounds metrics) side = (caption.background metrics).edge side) ∨
      connector.caption? = none ∧ ∃ point ∈ connector.points,
        ∀ side, bound (connector.labelBounds metrics) side = point.box.edge side := by
  have start : ∃ point ∈ connector.points,
      ∀ side, bound (labelBounds.start connector) side = point.box.edge side := by
    obtain ⟨first, rest, points⟩ := List.exists_cons_of_ne_nil some
    refine ⟨first, points ▸ List.mem_cons_self, fun side => ?_⟩
    rw [labelBounds.start, points]
    cases side <;> simp [bound, Point.box, Box.edge, Box.right, Box.bottom]
  cases isLabel : connector.label with
  | none =>
    simp only [labelBounds, caption?, isLabel]
    exact .inr ⟨trivial, start⟩
  | some label =>
    cases isPlace : connector.labelAt with
    | none =>
      simp only [labelBounds, caption?, isLabel, isPlace]
      exact .inr ⟨trivial, start⟩
    | some place =>
      simp only [labelBounds, caption?, isLabel, isPlace]
      split
      · exact .inr ⟨rfl, start⟩
      · exact .inl ⟨⟨label, place⟩, rfl, fun side => (bound_background ⟨label, place⟩ side).symm⟩

/-- The sides of what is seen of a connector are those of its points and of its label's bounds. -/
theorem exists_edge_iff (some : connector.points ≠ []) (side : Side) {a : Rat} :
    (∃ box ∈ connector.drawn metrics, box.edge side = a) ↔
      (∃ point ∈ connector.points, point.box.edge side = a) ∨ bound (connector.labelBounds metrics) side = a := by
  rw [drawn]
  rcases labelBounds_cases metrics some with ⟨caption, shown, bounds⟩ | ⟨hidden, point, mem, bounds⟩
  · rw [shown, bounds]
    simp
  · rw [hidden, bounds]
    simp only [Option.map_none, Option.toList_none, List.append_nil, List.mem_map, exists_exists_and_eq_and]
    exact (or_iff_left_of_imp fun isEdge => ⟨point, mem, isEdge⟩).symm

theorem caption?_shift (connector : Connector Rat) : (connector.shift dx dy).caption? =
    connector.caption?.map fun caption => ⟨caption.text, caption.place.shift dx dy⟩ := by
  rw [caption?, caption?, shift]
  cases connector.label with
  | none => rfl
  | some label =>
    cases connector.labelAt with
    | none => rfl
    | some place =>
      simp only [Option.map_some]
      split <;> rfl

theorem background_shift (caption : Caption Rat) :
    Caption.background metrics ⟨caption.text, caption.place.shift dx dy⟩ =
      (caption.background metrics).shift dx dy := by
  simp only [Caption.background, Point.shift, Box.shift, Box.mk.injEq, and_true, Coordinate.two_eq]
  constructor
  · ring
  · ring

theorem drawn_shift (connector : Connector Rat) :
    (connector.shift dx dy).drawn metrics = (connector.drawn metrics).map (Box.shift dx dy) := by
  rw [drawn, drawn, caption?_shift, List.map_append]
  congr 1
  · rw [shift, List.map_map, List.map_map]
    rfl
  · cases connector.caption? with
    | none => rfl
    | some caption => exact congrArg (fun box => [box]) (background_shift caption)

end Connector

namespace Layout.Content

variable {content : Content Rat}

/-- What is seen of some content. -/
def drawn (metrics : Metrics Rat) (content : Content Rat) : List (Box Rat) :=
  content.boxes.map ShapeBox.box ++ content.clusters.map Cluster.box ++
    content.connectors.flatMap (Connector.drawn metrics)

def edges (metrics : Metrics Rat) (content : Content Rat) : Side → List Rat
  | .top => content.tops metrics
  | .bottom => content.bottoms metrics
  | .left => content.lefts metrics
  | .right => content.rights metrics

theorem mem_edges (filled : ∀ connector ∈ content.connectors, connector.points ≠ []) (side : Side) {a : Rat} :
    a ∈ content.edges metrics side ↔ ∃ box ∈ content.drawn metrics, box.edge side = a := by
  have connectors : (∃ connector ∈ content.connectors, (∃ point ∈ connector.points, point.box.edge side = a) ∨
        Connector.bound (connector.labelBounds metrics) side = a) ↔
      ∃ connector ∈ content.connectors, ∃ box ∈ connector.drawn metrics, box.edge side = a :=
    exists_congr fun connector => and_congr_right fun mem =>
      (Connector.exists_edge_iff (filled connector mem) side).symm
  have shown : (∃ box ∈ content.drawn metrics, box.edge side = a) ↔
      ((∃ shape ∈ content.boxes, shape.box.edge side = a) ∨ ∃ cluster ∈ content.clusters, cluster.box.edge side = a) ∨
        ∃ connector ∈ content.connectors, ∃ box ∈ connector.drawn metrics, box.edge side = a := by
    simp only [drawn, List.mem_append, List.mem_map, List.mem_flatMap, or_and_right, exists_or,
      exists_exists_and_eq_and]
    apply or_congr_right
    constructor
    · rintro ⟨box, ⟨connector, mem, isDrawn⟩, isEdge⟩
      exact ⟨connector, mem, box, isDrawn, isEdge⟩
    · rintro ⟨connector, mem, box, isDrawn, isEdge⟩
      exact ⟨box, ⟨connector, mem, isDrawn⟩, isEdge⟩
  rw [shown, ← connectors]
  cases side with
  | left => simp [edges, lefts, Box.edge, Point.box, Connector.bound, eq_comm, or_assoc]
  | top => simp [edges, tops, Box.edge, Point.box, Connector.bound, eq_comm, or_assoc]
  | right =>
    simp [edges, rights, Box.edge, Box.right, Point.box, Connector.bound, eq_comm, and_or_left, exists_or, or_assoc]
  | bottom =>
    simp [edges, bottoms, Box.edge, Box.bottom, Point.box, Connector.bound, eq_comm, and_or_left, exists_or, or_assoc]

theorem drawn_shift (content : Content Rat) :
    (content.shift dx dy).drawn metrics = (content.drawn metrics).map (Box.shift dx dy) := by
  have connectors : (content.connectors.map (Connector.shift dx dy)).flatMap (Connector.drawn metrics) =
      (content.connectors.flatMap (Connector.drawn metrics)).map (Box.shift dx dy) := by
    rw [List.flatMap_map, List.map_flatMap]
    exact List.flatMap_congr fun connector _ => connector.drawn_shift
  rw [drawn, drawn, shift, connectors, List.map_append, List.map_append, List.map_map, List.map_map, List.map_map,
    List.map_map]
  rfl

/-- The order of the boxes does not matter for what is seen. -/
theorem mem_drawn_arrange {ids : List String} (same : ∀ shape, shape ∈ ids.map (Placement.find content.boxes) ↔
      shape ∈ content.boxes) {box : Box Rat} :
    box ∈ (content.arrange ids).drawn metrics ↔ box ∈ content.drawn metrics := by
  have shapes : box ∈ (ids.map (Placement.find content.boxes)).map ShapeBox.box ↔
      box ∈ content.boxes.map ShapeBox.box := by
    rw [List.mem_map, List.mem_map]
    simp only [same]
  simp only [drawn, arrange, List.mem_append, shapes]

/-- Content that starts at the padding or before it is moved so that it starts there. -/
theorem offset_eq {edges : List Rat} (early : ∃ edge ∈ edges, edge ≤ metrics.padding) :
    offset metrics edges = metrics.padding - Coordinate.minimum edges := by
  obtain ⟨edge, mem, bound⟩ := early
  have least := Coordinate.minimum_le mem
  rw [offset, Coordinate.larger_eq_max, Coordinate.zero_eq]
  apply max_eq_right
  linarith

theorem edges_some (filled : ∀ connector ∈ content.connectors, connector.points ≠ [])
    (some : content.drawn metrics ≠ []) (side : Side) : content.edges metrics side ≠ [] := by
  obtain ⟨box, mem⟩ := List.exists_mem_of_ne_nil _ some
  exact List.ne_nil_of_mem ((mem_edges filled side).2 ⟨box, mem, rfl⟩)

/-- A move by the distance between the least edge and the padding takes the least edge to the padding. -/
theorem starts_at_padding (filled : ∀ connector ∈ content.connectors, connector.points ≠ [])
    (some : content.drawn metrics ≠ []) {dx dy : Rat} (side : Side)
    (moves : Box.travel dx dy side = metrics.padding - Coordinate.minimum (content.edges metrics side)) :
    (∀ box ∈ (content.shift dx dy).drawn metrics, metrics.padding ≤ box.edge side) ∧
      ∃ box ∈ (content.shift dx dy).drawn metrics, box.edge side = metrics.padding := by
  rw [drawn_shift]
  constructor
  · intro box mem
    obtain ⟨base, isBase, rfl⟩ := List.mem_map.1 mem
    have least := Coordinate.minimum_le ((mem_edges filled side).2 ⟨base, isBase, rfl⟩)
    rw [Box.edge_shift, moves]
    linarith
  · obtain ⟨box, mem, isLeast⟩ := (mem_edges filled side).1 (Coordinate.minimum_mem (edges_some filled some side))
    refine ⟨_, List.mem_map_of_mem mem, ?_⟩
    rw [Box.edge_shift, moves, isLeast]
    ring

/-- The greatest edge bounds what is seen and is the edge of something. -/
theorem stops_at_maximum (filled : ∀ connector ∈ content.connectors, connector.points ≠ [])
    (some : content.drawn metrics ≠ []) (side : Side) :
    (∀ box ∈ content.drawn metrics, box.edge side ≤ Coordinate.maximum (content.edges metrics side)) ∧
      ∃ box ∈ content.drawn metrics, box.edge side = Coordinate.maximum (content.edges metrics side) := by
  constructor
  · intro box mem
    exact Coordinate.le_maximum ((mem_edges filled side).2 ⟨box, mem, rfl⟩)
  · exact (mem_edges filled side).1 (Coordinate.maximum_mem (edges_some filled some side))

theorem filled_shift (filled : ∀ connector ∈ content.connectors, connector.points ≠ []) :
    ∀ connector ∈ (content.shift dx dy).connectors, connector.points ≠ [] := by
  intro connector mem
  obtain ⟨base, isBase, rfl⟩ := List.mem_map.1 mem
  simpa [Connector.shift] using filled base isBase

end Layout.Content

namespace Scene

def drawn (metrics : Metrics Rat) (scene : Scene Rat) : List (Box Rat) :=
  Content.drawn metrics ⟨scene.shapes, scene.clusters, scene.connectors⟩

/-- What the padding leaves of the canvas. -/
def frame (metrics : Metrics Rat) (scene : Scene Rat) : Box Rat :=
  ⟨metrics.padding, metrics.padding, scene.width - 2 * metrics.padding, scene.height - 2 * metrics.padding⟩

/-- All that is drawn lies in the frame, and each side of the frame is touched. -/
structure Fits (metrics : Metrics Rat) (scene : Scene Rat) : Prop where
  proper : ∀ box ∈ scene.drawn metrics, box.IsProper
  inside : ∀ box ∈ scene.drawn metrics, box.Within (scene.frame metrics)
  touched : ∀ side, ∃ box ∈ scene.drawn metrics, box.edge side = (scene.frame metrics).edge side

theorem edge_right (scene : Scene Rat) : (scene.frame metrics).edge .right = scene.width - metrics.padding := by
  simp only [Box.edge, Box.right, frame]
  ring

theorem edge_bottom (scene : Scene Rat) : (scene.frame metrics).edge .bottom = scene.height - metrics.padding := by
  simp only [Box.edge, Box.bottom, frame]
  ring

/-- A scene fits if its content starts at the padding or before it on both axes. -/
theorem fits_of_content {content : Content Rat} {ids : List String} (direction : Direction)
    (filled : ∀ connector ∈ content.connectors, connector.points ≠ [])
    (same : ∀ shape, shape ∈ ids.map (Placement.find content.boxes) ↔ shape ∈ content.boxes)
    (proper : ∀ box ∈ content.drawn metrics, box.IsProper)
    (left : ∃ edge ∈ content.lefts metrics, edge ≤ metrics.padding)
    (top : ∃ edge ∈ content.tops metrics, edge ≤ metrics.padding) :
    (content.scene direction metrics ids).Fits metrics := by
  obtain ⟨dx, isX⟩ : ∃ dx, dx = Content.offset metrics (content.lefts metrics) := ⟨_, rfl⟩
  obtain ⟨dy, isY⟩ : ∃ dy, dy = Content.offset metrics (content.tops metrics) := ⟨_, rfl⟩
  obtain ⟨moved, isMoved⟩ : ∃ moved, moved = (content.arrange ids).shift dx dy := ⟨_, rfl⟩
  have seen {box : Box Rat} :
      box ∈ (content.scene direction metrics ids).drawn metrics ↔ box ∈ moved.drawn metrics := by
    rw [isMoved, isX, isY]
    rfl
  have shifted {box : Box Rat} : box ∈ moved.drawn metrics ↔ box ∈ (content.shift dx dy).drawn metrics := by
    simp only [isMoved, Content.drawn_shift, List.mem_map, Content.mem_drawn_arrange same]
  have width : (content.scene direction metrics ids).width - metrics.padding =
      Coordinate.maximum (moved.edges metrics .right) := by
    rw [isMoved, isX, isY]
    exact add_sub_cancel_right _ _
  have height : (content.scene direction metrics ids).height - metrics.padding =
      Coordinate.maximum (moved.edges metrics .bottom) := by
    rw [isMoved, isX, isY]
    exact add_sub_cancel_right _ _
  have some : content.drawn metrics ≠ [] := by
    obtain ⟨edge, mem, -⟩ := left
    obtain ⟨box, isBox, -⟩ := (Content.mem_edges filled .left).1 mem
    exact List.ne_nil_of_mem isBox
  have travelX : Box.travel dx dy .left = metrics.padding - Coordinate.minimum (content.edges metrics .left) :=
    isX.trans (Content.offset_eq left)
  have travelY : Box.travel dx dy .top = metrics.padding - Coordinate.minimum (content.edges metrics .top) :=
    isY.trans (Content.offset_eq top)
  have lefts := Content.starts_at_padding filled some .left travelX
  have tops := Content.starts_at_padding filled some .top travelY
  have movedSome : moved.drawn metrics ≠ [] := by
    obtain ⟨box, mem, -⟩ := lefts.2
    exact List.ne_nil_of_mem (shifted.2 mem)
  have movedFilled : ∀ connector ∈ moved.connectors, connector.points ≠ [] := by
    rw [isMoved]
    exact Content.filled_shift filled
  have rights := Content.stops_at_maximum movedFilled movedSome .right
  have bottoms := Content.stops_at_maximum movedFilled movedSome .bottom
  rw [← width] at rights
  rw [← height] at bottoms
  refine ⟨?proper, ?inside, ?touched⟩
  case proper =>
    intro box mem
    rw [seen, shifted, Content.drawn_shift, List.mem_map] at mem
    obtain ⟨base, isBase, rfl⟩ := mem
    exact proper base isBase
  case inside =>
    intro box mem
    rw [seen] at mem
    constructor
    · exact lefts.1 box (shifted.1 mem)
    · rw [edge_right]
      exact rights.1 box mem
    · exact tops.1 box (shifted.1 mem)
    · rw [edge_bottom]
      exact bottoms.1 box mem
  case touched =>
    simp only [seen]
    intro side
    cases side with
    | left =>
      obtain ⟨box, mem, isEdge⟩ := lefts.2
      exact ⟨box, shifted.2 mem, isEdge⟩
    | top =>
      obtain ⟨box, mem, isEdge⟩ := tops.2
      exact ⟨box, shifted.2 mem, isEdge⟩
    | right =>
      rw [edge_right]
      exact rights.2
    | bottom =>
      rw [edge_bottom]
      exact bottoms.2

end Scene

end Flowchart
