import Flowchart.Proofs.Related
import Flowchart.Proofs.Scene.Enclosure
import Flowchart.Proofs.Scene.Facing
import Flowchart.Proofs.Scene.Separation

/-!
Scenes of opposite directions. What lies across the flow is the same in both, and along it the nodes and the ends of the
edges are mirror images of one another: the nodes stand in bands that are stacked from the other end, and the sides that
edges use are exchanged. Bends, loops and frames are the same across the flow and have no image along it.
-/
namespace Flowchart

variable {direction : Direction} {metrics : Metrics Rat} {graph : Graph} {sum dx dy dx' dy' : Rat}

namespace Point

/-- Where a point lies on the axis along which the ranks follow one another. -/
def along (direction : Direction) (point : Point Rat) : Rat :=
  direction.alongFlow point.x point.y

def across (direction : Direction) (point : Point Rat) : Rat :=
  direction.acrossFlow point.x point.y

/-- The points face each other across a line whose two distances from the start of the axis add up to a sum. -/
structure Mirrors (direction : Direction) (sum : Rat) (point image : Point Rat) : Prop where
  along : point.along direction + image.along direction = sum
  across : image.across direction = point.across direction

end Point

namespace Box

/-- How far a box extends along the flow. -/
def extent (direction : Direction) (box : Box Rat) : Rat :=
  direction.alongFlow box.width box.height

/-- Where a box starts and ends across the flow. -/
def span (direction : Direction) (box : Box Rat) : Rat × Rat :=
  (box.crossStart direction, box.crossEnd direction)

theorem span_eq (direction : Direction) (box : Box Rat) :
    box.span direction = (box.edge direction.sides.before, box.edge direction.sides.after) := by
  cases direction <;> rfl

structure Mirrors (direction : Direction) (sum : Rat) (box image : Box Rat) : Prop where
  width : image.width = box.width
  height : image.height = box.height
  along : box.flowStart direction + box.extent direction + image.flowStart direction = sum
  across : image.crossStart direction = box.crossStart direction

end Box

structure ShapeBox.Mirrors (direction : Direction) (sum : Rat) (node image : ShapeBox Rat) : Prop where
  id : image.id = node.id
  shape : image.shape = node.shape
  label : image.label = node.label
  rank : image.rank = node.rank
  order : image.order = node.order
  box : node.box.Mirrors direction sum image.box

/-- What of a cluster does not depend on where the flow starts. -/
def Cluster.across (direction : Direction) (cluster : Cluster Rat) : String × Option String × Rat × Rat :=
  (cluster.id, cluster.title, cluster.box.span direction)

structure Connector.Mirrors (direction : Direction) (sum : Rat) (connector image : Connector Rat) : Prop where
  index : image.index = connector.index
  source : image.source = connector.source
  target : image.target = connector.target
  style : image.style = connector.style
  head : image.head = connector.head
  label : image.label = connector.label
  labelAt : image.labelAt.map (Point.across direction) = connector.labelAt.map (Point.across direction)
  across : image.points.map (Point.across direction) = connector.points.map (Point.across direction)
  /-- The ends of an edge between different nodes are mirror images, and nothing is said of its bend. -/
  ends : connector.source ≠ connector.target → ∃ start bend stop start' bend' stop',
    connector.points = start :: (bend ++ [stop]) ∧ image.points = start' :: (bend' ++ [stop']) ∧
      start.Mirrors direction sum start' ∧ stop.Mirrors direction sum stop'

namespace Scene

/-- How far a scene extends across the flow. -/
def breadth (direction : Direction) (scene : Scene Rat) : Rat :=
  direction.acrossFlow scene.width scene.height

structure Mirrors (direction : Direction) (sum : Rat) (scene image : Scene Rat) : Prop where
  shapes : List.Forall₂ (ShapeBox.Mirrors direction sum) scene.shapes image.shapes
  clusters : image.clusters.map (Cluster.across direction) = scene.clusters.map (Cluster.across direction)
  connectors : List.Forall₂ (Connector.Mirrors direction sum) scene.connectors image.connectors
  breadth : image.breadth direction = scene.breadth direction

end Scene

namespace Placement

variable {gap start stop depth along : Rat} {rank order : Nat} {row : List (Sized Rat)}

section find

variable {shapes images : List (ShapeBox Rat)}

/-- A node that has a box has an image. -/
theorem mirrors_find (mirrors : List.Forall₂ (ShapeBox.Mirrors direction sum) shapes images) {id : String}
    (known : id ∈ shapes.map ShapeBox.id) : (find shapes id).Mirrors direction sum (find images id) := by
  obtain ⟨shape, isShape, isId⟩ := List.mem_map.1 known
  have both : Option.Rel (ShapeBox.Mirrors direction sum) (shapes.find? (·.id == id)) (images.find? (·.id == id)) :=
    rel_find? mirrors fun shape image related => congrArg (· == id) related.id
  rw [find, find]
  cases found : shapes.find? (·.id == id) with
  | none => exact absurd (beq_iff_eq.2 isId) (List.find?_eq_none.1 found shape isShape)
  | some shape =>
    rw [found] at both
    generalize images.find? (·.id == id) = image? at both ⊢
    cases both with
    | some mirrors => exact mirrors

end find

end Placement

section sides

variable {point image : Point Rat} {box other : Box Rat}

/-- The side that takes the place of a side when the flow is turned around. -/
def Side.mirror (direction : Direction) : Side → Side
  | .top => if direction.isHorizontal then .top else .bottom
  | .bottom => if direction.isHorizontal then .bottom else .top
  | .left => if direction.isHorizontal then .right else .left
  | .right => if direction.isHorizontal then .left else .right

/-- Across the flow both ends of the boxes are the same, too. -/
theorem Box.Mirrors.span_eq (mirrors : box.Mirrors direction sum other) :
    other.span direction = box.span direction := by
  have across := mirrors.across
  rw [Box.span, Box.span]
  refine Prod.ext across ?_
  cases horizontal : direction.isHorizontal <;>
    simp only [Box.crossStart, Box.crossEnd, Box.right, Box.bottom, horizontal] at across ⊢
  · exact congrArg₂ (· + ·) across mirrors.width
  · exact congrArg₂ (· + ·) across mirrors.height

theorem Box.Mirrors.middle (mirrors : box.Mirrors direction sum other) (side : Side) :
    (box.middle side).Mirrors direction sum (other.middle (side.mirror direction)) := by
  obtain ⟨width, height, along, across⟩ := mirrors
  cases horizontal : direction.isHorizontal <;>
    simp only [Box.extent, Box.flowStart, Box.crossStart, Direction.alongFlow, horizontal, reduceIte,
      Bool.false_eq_true] at along across <;>
    cases side <;>
    constructor <;>
    simp [Side.mirror, Box.middle, Box.center, Box.right, Box.bottom, Point.along, Point.across, Direction.alongFlow,
      Direction.acrossFlow, horizontal, width, height] <;>
    linarith

theorem Point.across_shift (direction : Direction) (dx dy : Rat) (point : Point Rat) :
    (point.shift dx dy).across direction = point.across direction + direction.acrossFlow dx dy := by
  cases horizontal : direction.isHorizontal <;>
    simp [Point.shift, Point.across, Direction.acrossFlow, horizontal]

theorem Point.Mirrors.shift (mirrors : point.Mirrors direction sum image)
    (same : direction.acrossFlow dx' dy' = direction.acrossFlow dx dy) : (point.shift dx dy).Mirrors direction
      (sum + direction.alongFlow dx dy + direction.alongFlow dx' dy') (image.shift dx' dy') := by
  obtain ⟨along, across⟩ := mirrors
  refine ⟨?_, by rw [across_shift, across_shift, across, same]⟩
  rw [← along]
  cases horizontal : direction.isHorizontal <;>
    simp only [Point.shift, Point.along, Direction.alongFlow, horizontal, reduceIte, Bool.false_eq_true] <;>
    ring

theorem Box.Mirrors.shift (mirrors : box.Mirrors direction sum other)
    (same : direction.acrossFlow dx' dy' = direction.acrossFlow dx dy) : (box.shift dx dy).Mirrors direction
      (sum + direction.alongFlow dx dy + direction.alongFlow dx' dy') (other.shift dx' dy') := by
  obtain ⟨width, height, along, across⟩ := mirrors
  refine ⟨width, height, ?_, ?_⟩
  · rw [flowStart_shift, flowStart_shift, ← along]
    show _ + box.extent direction + _ = _
    ring
  · rw [crossStart_shift, crossStart_shift, across, same]

end sides

namespace Connector

variable {source target source' target' : ShapeBox Rat}

/-- Polylines that are the same across the flow, and whose labels are. -/
structure Alike (direction : Direction) (points image : List (Point Rat)) : Prop where
  across : image.map (Point.across direction) = points.map (Point.across direction)
  label : (labelPoint image).across direction = (labelPoint points).across direction

section route

variable {boxes images : List (ShapeBox Rat)}

end route

theorem Mirrors.shift {connector image : Connector Rat} (mirrors : connector.Mirrors direction sum image)
    (same : direction.acrossFlow dx' dy' = direction.acrossFlow dx dy) : (connector.shift dx dy).Mirrors direction
      (sum + direction.alongFlow dx dy + direction.alongFlow dx' dy') (image.shift dx' dy') := by
  have moved : Point.across direction ∘ Point.shift dx dy =
      (· + direction.acrossFlow dx dy) ∘ Point.across direction := funext (Point.across_shift direction dx dy)
  have moved' : Point.across direction ∘ Point.shift dx' dy' =
      (· + direction.acrossFlow dx dy) ∘ Point.across direction :=
    same ▸ funext (Point.across_shift direction dx' dy')
  refine ⟨mirrors.index, mirrors.source, mirrors.target, mirrors.style, mirrors.head, mirrors.label, ?_, ?_, ?_⟩
  · rw [Connector.shift, Connector.shift, Option.map_map, Option.map_map, moved, moved', ← Option.map_map,
      mirrors.labelAt, Option.map_map]
  · rw [Connector.shift, Connector.shift, List.map_map, List.map_map, moved, moved', ← List.map_map,
      mirrors.across, List.map_map]
  · intro apart
    obtain ⟨start, bend, stop, start', bend', stop', points, points', starts, stops⟩ := mirrors.ends apart
    refine ⟨_, bend.map (Point.shift dx dy), _, _, bend'.map (Point.shift dx' dy'), _, ?_, ?_, starts.shift same,
      stops.shift same⟩
    · rw [Connector.shift, points, List.map_cons, List.map_append, List.map_singleton]
    · rw [Connector.shift, points', List.map_cons, List.map_append, List.map_singleton]

end Connector

namespace Cluster

variable {boxes images : List (Box Rat)}

section frames

variable {shapes others : List (ShapeBox Rat)} {order : List Subgraph}

end frames

end Cluster

namespace Layout.Content

variable {content image : Content Rat}

structure Mirrors (direction : Direction) (sum : Rat) (content image : Content Rat) : Prop where
  boxes : List.Forall₂ (ShapeBox.Mirrors direction sum) content.boxes image.boxes
  clusters : image.clusters.map (Cluster.across direction) = content.clusters.map (Cluster.across direction)
  connectors : List.Forall₂ (Connector.Mirrors direction sum) content.connectors image.connectors

/-- Where content starts across the flow. -/
theorem edges_before (direction : Direction) (content : Content Rat) :
    content.edges metrics direction.sides.before =
      content.boxes.map (fun shape => (shape.box.span direction).1) ++
        content.clusters.map (fun cluster => (cluster.box.span direction).1) ++
          content.connectors.flatMap fun connector => connector.points.map (Point.across direction) ++
            [direction.acrossFlow (connector.labelBounds metrics).1.1 (connector.labelBounds metrics).1.2] := by
  cases direction <;> rfl

/-- Where content stops across the flow. -/
theorem edges_after (direction : Direction) (content : Content Rat) :
    content.edges metrics direction.sides.after =
      content.boxes.map (fun shape => (shape.box.span direction).2) ++
        content.clusters.map (fun cluster => (cluster.box.span direction).2) ++
          (content.connectors.flatMap fun connector => connector.points.map (Point.across direction)) ++
            content.connectors.map fun connector =>
              direction.acrossFlow (connector.labelBounds metrics).2.1 (connector.labelBounds metrics).2.2 := by
  cases direction <;> rfl

end Layout.Content

theorem Connector.Mirrors.bounds {connector image : Connector Rat} (mirrors : connector.Mirrors direction sum image)
    (metrics : Metrics Rat) :
    direction.acrossFlow (image.labelBounds metrics).1.1 (image.labelBounds metrics).1.2 =
        direction.acrossFlow (connector.labelBounds metrics).1.1 (connector.labelBounds metrics).1.2 ∧
      direction.acrossFlow (image.labelBounds metrics).2.1 (image.labelBounds metrics).2.2 =
        direction.acrossFlow (connector.labelBounds metrics).2.1 (connector.labelBounds metrics).2.2 := by
  have start : (image.points.headD default).across direction =
      (connector.points.headD default).across direction := by
    have across := mirrors.across
    cases points : connector.points with
    | nil => simp_all
    | cons => cases points' : image.points <;> simp_all
  have isPlace := mirrors.labelAt
  rw [labelBounds, labelBounds, mirrors.label]
  cases connector.label with
  | none => exact ⟨start, start⟩
  | some label =>
    cases place : connector.labelAt with
    | none =>
      rw [place, Option.map_none, Option.map_eq_none_iff] at isPlace
      rw [isPlace]
      exact ⟨start, start⟩
    | some point =>
      rw [place, Option.map_some, Option.map_eq_some_iff] at isPlace
      obtain ⟨point', isPoint, across⟩ := isPlace
      rw [isPoint]
      dsimp only
      split
      · exact ⟨start, start⟩
      · cases horizontal : direction.isHorizontal <;>
          simp_all [Point.across, Direction.acrossFlow]

theorem Cluster.across_shift (direction : Direction) (dx dy : Rat) (cluster : Cluster Rat) :
    (cluster.shift dx dy).across direction = (cluster.id, cluster.title,
      (cluster.box.span direction).1 + direction.acrossFlow dx dy,
      (cluster.box.span direction).2 + direction.acrossFlow dx dy) := by
  rw [across, Box.span]
  show (_, _, (cluster.box.shift dx dy).crossStart direction, (cluster.box.shift dx dy).crossEnd direction) = _
  rw [Box.crossStart_shift, Box.crossEnd_shift]
  rfl

namespace Layout.Content

variable {content image : Content Rat} (mirrors : content.Mirrors direction sum image)
include mirrors

theorem Mirrors.edges (metrics : Metrics Rat) :
    image.edges metrics direction.sides.before = content.edges metrics direction.sides.before ∧
      image.edges metrics direction.sides.after = content.edges metrics direction.sides.after := by
  have boxes (part : Rat × Rat → Rat) : image.boxes.map (fun shape => part (shape.box.span direction)) =
      content.boxes.map fun shape => part (shape.box.span direction) :=
    map_eq_of_forall₂ mirrors.boxes fun _ _ related => congrArg part related.box.span_eq
  have clusters (part : Rat × Rat → Rat) :
      image.clusters.map (fun cluster => part (cluster.box.span direction)) =
        content.clusters.map fun cluster => part (cluster.box.span direction) := by
    have same := congrArg (List.map fun view => part view.2.2) mirrors.clusters
    rwa [List.map_map, List.map_map] at same
  have points (more : Connector Rat → List Rat) (same : ∀ connector image : Connector Rat,
        connector.Mirrors direction sum image → more image = more connector) :
      image.connectors.flatMap (fun connector => connector.points.map (Point.across direction) ++ more connector) =
        content.connectors.flatMap fun connector =>
          connector.points.map (Point.across direction) ++ more connector :=
    flatMap_eq_of_forall₂ mirrors.connectors fun connector image related =>
      congrArg₂ (· ++ ·) related.across (same connector image related)
  constructor
  · rw [edges_before, edges_before, boxes Prod.fst, clusters Prod.fst, points]
    exact fun connector image related => congrArg (fun bound => [bound]) (related.bounds metrics).1
  · have ways := points (fun _ => []) fun _ _ _ => rfl
    simp only [List.append_nil] at ways
    rw [edges_after, edges_after, boxes Prod.snd, clusters Prod.snd, ways,
      map_eq_of_forall₂ mirrors.connectors fun connector image related => (related.bounds metrics).2]

theorem Mirrors.shift (same : direction.acrossFlow dx' dy' = direction.acrossFlow dx dy) :
    (content.shift dx dy).Mirrors direction (sum + direction.alongFlow dx dy + direction.alongFlow dx' dy')
      (image.shift dx' dy') := by
  refine ⟨?_, ?_, ?_⟩
  · rw [Content.shift, Content.shift]
    refine List.forall₂_map_left_iff.2 (List.forall₂_map_right_iff.2 (mirrors.boxes.imp fun _ _ related => ?_))
    exact ⟨related.id, related.shape, related.label, related.rank, related.order, related.box.shift same⟩
  · have moved (list : List (Cluster Rat)) (dx dy : Rat) :
        (list.map (Cluster.shift dx dy)).map (Cluster.across direction) =
          (list.map (Cluster.across direction)).map fun view => (view.1, view.2.1,
            view.2.2.1 + direction.acrossFlow dx dy, view.2.2.2 + direction.acrossFlow dx dy) := by
      rw [List.map_map, List.map_map]
      exact List.map_congr_left fun cluster _ => Cluster.across_shift direction dx dy cluster
    rw [Content.shift, Content.shift, moved, moved, mirrors.clusters, same]
  · rw [Content.shift, Content.shift]
    exact List.forall₂_map_left_iff.2
      (List.forall₂_map_right_iff.2 (mirrors.connectors.imp fun _ _ related => related.shift same))

theorem Mirrors.arrange {ids : List String} (known : ∀ id ∈ ids, id ∈ content.boxes.map ShapeBox.id) :
    (content.arrange ids).Mirrors direction sum (image.arrange ids) where
  boxes := by
    refine List.forall₂_map_left_iff.2 (List.forall₂_map_right_iff.2 (List.forall₂_same.2 fun id mem => ?_))
    exact Placement.mirrors_find mirrors.boxes (known id mem)
  clusters := mirrors.clusters
  connectors := mirrors.connectors

/-- Scenes of mirrored content mirror one another, once both are moved into place. -/
theorem Mirrors.scene (metrics : Metrics Rat) {ids : List String}
    (known : ∀ id ∈ ids, id ∈ content.boxes.map ShapeBox.id) :
    ∃ total, (content.scene direction metrics ids).Mirrors direction total
      (image.scene direction.mirror metrics ids) := by
  let dx := offset metrics (content.lefts metrics)
  let dy := offset metrics (content.tops metrics)
  let dx' := offset metrics (image.lefts metrics)
  let dy' := offset metrics (image.tops metrics)
  have offsets (content : Content Rat) : direction.acrossFlow (offset metrics (content.lefts metrics))
      (offset metrics (content.tops metrics)) = offset metrics (content.edges metrics direction.sides.before) := by
    cases direction <;> rfl
  have same : direction.acrossFlow dx' dy' = direction.acrossFlow dx dy := by
    rw [offsets, offsets, (mirrors.edges metrics).1]
  have moved := (mirrors.arrange known).shift same
  refine ⟨_, moved.boxes, moved.clusters, moved.connectors, ?_⟩
  have breadth (direction' : Direction) (ids : List String) (content : Content Rat) :
      (content.scene direction' metrics ids).breadth direction = Coordinate.maximum
        (((content.arrange ids).shift (offset metrics (content.lefts metrics))
          (offset metrics (content.tops metrics))).edges metrics direction.sides.after) + metrics.padding := by
    cases direction <;> rfl
  rw [breadth, breadth, (moved.edges metrics).2]

end Layout.Content

namespace Scene

end Scene
end Flowchart
