import Flowchart.Proofs.Scene.Depiction
import Flowchart.Proofs.Scene.Fitting

/-!
What the frames of subgraphs enclose. A frame is the least rectangle that leaves the margins around the nodes of its
subgraph and the frames of its children. As margins are not negative, frames lie in the frames around them, and with
them all nodes at whatever depth; and outer frames are drawn first, so that they hide no inner one.
-/
namespace Flowchart

variable {graph : Graph} {metrics : Metrics Rat} {scene : Scene Rat} {order : List Subgraph} {subgraph : Subgraph}
  {dx dy : Rat}

namespace Side

/-- Along the axis of the side, the outer place lies no further inside than the inner one. -/
def Covers (outer inner : Rat) : Side → Prop
  | .left | .top => outer ≤ inner
  | .right | .bottom => inner ≤ outer

/-- The place at a distance to the outside. -/
def outward (place distance : Rat) : Side → Rat
  | .left | .top => place - distance
  | .right | .bottom => place + distance

/-- The outermost of some places. -/
def outermost (places : List Rat) : Side → Rat
  | .left | .top => Coordinate.minimum places
  | .right | .bottom => Coordinate.maximum places

variable {side : Side} {outer between inner distance : Rat} {places : List Rat}

theorem Covers.trans (first : side.Covers outer between) (second : side.Covers between inner) :
    side.Covers outer inner := by
  cases side with
  | left | top => exact le_trans first second
  | right | bottom => exact le_trans second first

theorem covers_add (shift : Rat) : side.Covers (outer + shift) (inner + shift) ↔ side.Covers outer inner := by
  cases side <;> exact add_le_add_iff_right shift

theorem covers_outward (nonneg : 0 ≤ distance) (place : Rat) : side.Covers (side.outward place distance) place := by
  cases side with
  | left | top => exact sub_le_self place nonneg
  | right | bottom => exact le_add_of_nonneg_right nonneg

theorem covers_outermost (mem : inner ∈ places) : side.Covers (side.outermost places) inner := by
  cases side with
  | left | top => exact Coordinate.minimum_le mem
  | right | bottom => exact Coordinate.le_maximum mem

theorem outermost_mem (some : places ≠ []) (side : Side) : side.outermost places ∈ places := by
  cases side with
  | left | top => exact Coordinate.minimum_mem some
  | right | bottom => exact Coordinate.maximum_mem some

theorem outward_covers : side.Covers (side.outward outer distance) (side.outward inner distance) ↔
    side.Covers outer inner := by
  cases side with
  | left | top => exact sub_le_sub_iff_right distance
  | right | bottom => exact add_le_add_iff_right distance

end Side

namespace Metrics

/-- How far a frame stays away from what it surrounds; above, there is a line for the title. -/
def margin (metrics : Metrics Rat) : Side → Rat
  | .top => metrics.padding / 2 + metrics.lineHeight
  | .left | .right | .bottom => metrics.padding / 2

theorem margin_nonneg (admissible : metrics.Admissible) (side : Side) : 0 ≤ metrics.margin side := by
  have padding := admissible.padding_nonneg
  have title := admissible.lineHeight_nonneg
  cases side <;> simp only [margin] <;> linarith

end Metrics

namespace Box

/-- The box with the margins of a frame around it. -/
def enlarged (metrics : Metrics Rat) (box : Box Rat) : Box Rat :=
  let left := box.x - metrics.padding / 2
  let top := box.y - (metrics.padding / 2 + metrics.fontSize + 6)
  ⟨left, top, box.right + metrics.padding / 2 - left, box.bottom + metrics.padding / 2 - top⟩

/-- The least box around others, with the margins of a frame. -/
structure IsFrame (metrics : Metrics Rat) (surrounded : Box Rat → Prop) (frame : Box Rat) : Prop where
  contains : ∀ box, surrounded box → (box.enlarged metrics).Within frame
  least : ∀ other : Box Rat, (∀ box, surrounded box → (box.enlarged metrics).Within other) → frame.Within other

variable {box frame between : Box Rat} {surrounded moved : Box Rat → Prop}

theorem within_iff : box.Within frame ↔ ∀ side : Side, side.Covers (frame.edge side) (box.edge side) := by
  constructor
  · rintro ⟨left, right, top, bottom⟩ side
    cases side
    · exact top
    · exact bottom
    · exact left
    · exact right
  · exact fun covers => ⟨covers .left, covers .right, covers .top, covers .bottom⟩

theorem Within.trans (first : box.Within between) (second : between.Within frame) : box.Within frame :=
  within_iff.2 fun side => (within_iff.1 second side).trans (within_iff.1 first side)

theorem edge_enlarged (metrics : Metrics Rat) (box : Box Rat) (side : Side) :
    (box.enlarged metrics).edge side = side.outward (box.edge side) (metrics.margin side) := by
  have six : (6.0 : Rat) = 6 := by norm_num
  cases side <;>
    simp only [edge, enlarged, Side.outward, Metrics.margin, Metrics.lineHeight, right, bottom, six] <;>
    ring

theorem within_enlarged (admissible : metrics.Admissible) (box : Box Rat) : box.Within (box.enlarged metrics) := by
  refine within_iff.2 fun side => ?_
  rw [edge_enlarged]
  exact Side.covers_outward (Metrics.margin_nonneg admissible side) _

/-- Each side of the box leaves its margin around everything, and around something no more. -/
def Hugs (metrics : Metrics Rat) (surrounded : Box Rat → Prop) (frame : Box Rat) : Prop :=
  ∀ side : Side, (∀ box, surrounded box →
      side.Covers (frame.edge side) (side.outward (box.edge side) (metrics.margin side))) ∧
    ∃ box, surrounded box ∧ frame.edge side = side.outward (box.edge side) (metrics.margin side)

theorem Hugs.isFrame (hugs : Hugs metrics surrounded frame) : IsFrame metrics surrounded frame where
  contains box isSurrounded := by
    refine within_iff.2 fun side => ?_
    rw [edge_enlarged]
    exact (hugs side).1 box isSurrounded
  least other contains := by
    refine within_iff.2 fun side => ?_
    obtain ⟨box, isSurrounded, isEdge⟩ := (hugs side).2
    rw [isEdge, ← edge_enlarged]
    exact within_iff.1 (contains box isSurrounded) side

/-- What holds of a frame holds wherever it is moved together with what it surrounds. -/
theorem Hugs.shift (hugs : Hugs metrics surrounded frame)
    (same : ∀ box, moved box ↔ ∃ base, surrounded base ∧ base.shift dx dy = box) :
    Hugs metrics moved (frame.shift dx dy) := by
  have outward (side : Side) (place : Rat) : side.outward (place + travel dx dy side) (metrics.margin side) =
      side.outward place (metrics.margin side) + travel dx dy side := by
    cases side <;> simp only [Side.outward] <;> ring
  intro side
  constructor
  · intro box isMoved
    obtain ⟨base, isSurrounded, rfl⟩ := (same box).1 isMoved
    rw [edge_shift, edge_shift, outward, Side.covers_add]
    exact (hugs side).1 base isSurrounded
  · obtain ⟨base, isSurrounded, isEdge⟩ := (hugs side).2
    refine ⟨base.shift dx dy, (same _).2 ⟨base, isSurrounded, rfl⟩, ?_⟩
    rw [edge_shift, edge_shift, outward, isEdge]

end Box

namespace Cluster

/-- Each side of a frame lies a margin outside of the outermost of what the frame surrounds. -/
theorem edge_frame? {boxes : List (Box Rat)} {frame : Box Rat} (isFrame : frame? metrics boxes = some frame)
    (side : Side) :
    frame.edge side = side.outward (side.outermost (boxes.map (·.edge side))) (metrics.margin side) := by
  cases boxes with
  | nil => cases isFrame
  | cons first rest =>
    cases isFrame
    cases side <;>
      simp only [Box.edge, Box.right, Box.bottom, Side.outward, Side.outermost, Metrics.margin, Coordinate.two_eq]
    · ring
    · exact add_sub_cancel _ _
    · exact add_sub_cancel _ _

theorem hugs_frame? {boxes : List (Box Rat)} {frame : Box Rat} (isFrame : frame? metrics boxes = some frame) :
    Box.Hugs metrics (· ∈ boxes) frame := by
  have some : boxes ≠ [] := frame?_isSome.1 (by rw [isFrame]; rfl)
  intro side
  rw [edge_frame? isFrame]
  constructor
  · intro box mem
    rw [Side.outward_covers]
    exact Side.covers_outermost (List.mem_map_of_mem mem)
  · obtain ⟨box, mem, isEdge⟩ := List.mem_map.1
      (Side.outermost_mem (by simpa using some : boxes.map (·.edge side) ≠ []) side)
    exact ⟨box, mem, by rw [isEdge]⟩

/-- The boxes that the frame of a subgraph surrounds: those of its own nodes and the frames of its children. -/
def around (metrics : Metrics Rat) (boxes : List (ShapeBox Rat)) (order : List Subgraph) (subgraph : Subgraph) :
    List (Box Rat) :=
  (subgraph.members.map fun id => (Placement.find boxes id).box) ++
    subgraph.children.filterMap fun id => ((framesOf metrics boxes order).lookup id).join

section frames

variable {boxes : List (ShapeBox Rat)}

/-- The first frame of an id is the one that counts. -/
theorem lookup_framesOf_concat {id : String} (known : id ∈ order.map Subgraph.id) (subgraph : Subgraph) :
    (framesOf metrics boxes (order ++ [subgraph])).lookup id = (framesOf metrics boxes order).lookup id := by
  rw [framesOf_concat, addFrame, List.lookup_append, Option.or_of_isSome (isSome_lookup_framesOf.2 known)]

theorem around_concat {last : Subgraph} (known : ∀ child ∈ subgraph.children, child ∈ order.map Subgraph.id) :
    around metrics boxes (order ++ [last]) subgraph = around metrics boxes order subgraph := by
  rw [around, around]
  congr 1
  refine List.filterMap_congr fun child isChild => ?_
  rw [lookup_framesOf_concat (known child isChild)]

/-- In a list of children first, the frame of each subgraph is the one around its own nodes and the frames of its
children. -/
theorem lookup_framesOf (grouped : graph.Grouped) (subset : order ⊆ graph.subgraphs) (nested : Nested order.reverse)
    (isSubgraph : subgraph ∈ graph.subgraphs) (known : subgraph.id ∈ order.map Subgraph.id) :
    (∀ child ∈ subgraph.children, child ∈ order.map Subgraph.id) ∧
      (framesOf metrics boxes order).lookup subgraph.id =
        some (frame? metrics (around metrics boxes order subgraph)) := by
  induction order using List.reverseRecOn with
  | nil => cases known
  | append_singleton order last ih =>
    obtain ⟨children, nested⟩ := nested_reverse_concat.1 nested
    have kept {id : String} (known : id ∈ order.map Subgraph.id) : id ∈ (order ++ [last]).map Subgraph.id := by
      rw [List.map_append]
      exact List.mem_append_left _ known
    by_cases before : subgraph.id ∈ order.map Subgraph.id
    · obtain ⟨inFront, isFrame⟩ := ih (fun _ mem => subset (List.mem_append_left _ mem)) nested before
      rw [lookup_framesOf_concat before, around_concat inFront]
      exact ⟨fun child isChild => kept (inFront child isChild), isFrame⟩
    · have same : last.id = subgraph.id := by simpa [before, eq_comm] using known
      have isLast : last ∈ graph.subgraphs := subset (List.mem_append_right _ List.mem_cons_self)
      obtain rfl := List.inj_on_of_nodup_map grouped.distinct isLast isSubgraph same
      have fresh : (framesOf metrics boxes order).lookup last.id = none :=
        Option.not_isSome_iff_eq_none.1 fun framed => before (isSome_lookup_framesOf.1 framed)
      refine ⟨fun child isChild => kept (children child isChild), ?_⟩
      rw [around_concat children, framesOf_concat, addFrame, List.lookup_append, fresh, Option.none_or,
        List.lookup_cons, beq_self_eq_true]
      rfl

/-- The clusters show the frames that there are. -/
theorem exists_mem_ofGraph {id : String} (known : id ∈ graph.subgraphs.map Subgraph.id) {box : Box Rat} :
    (∃ cluster ∈ ofGraph graph metrics boxes order, cluster.id = id ∧ cluster.box = box) ↔
      ((framesOf metrics boxes order).lookup id).join = some box := by
  constructor
  · rintro ⟨cluster, mem, rfl, rfl⟩
    obtain ⟨subgraph, -, framed⟩ := List.mem_filterMap.1 mem
    obtain ⟨box, isFrame, rfl⟩ := Option.map_eq_some_iff.1 framed
    exact isFrame
  · intro isFrame
    obtain ⟨subgraph, isSubgraph, rfl⟩ := List.mem_map.1 known
    exact ⟨_, List.mem_filterMap.2 ⟨subgraph, isSubgraph, Option.map_eq_some_iff.2 ⟨box, isFrame, rfl⟩⟩, rfl, rfl⟩

end frames

end Cluster

theorem Graph.child_mem (grouped : graph.Grouped) (isSubgraph : subgraph ∈ graph.subgraphs) :
    ∀ child ∈ subgraph.children, child ∈ graph.subgraphs.map Subgraph.id := by
  intro child isChild
  obtain ⟨front, behind, split⟩ := List.append_of_mem isSubgraph
  have nested := nested_of_append (split ▸ grouped.nested)
  have isBehind := nested.1 child isChild
  rw [split, List.map_append, List.map_cons]
  exact List.mem_append_right _ (List.mem_cons_of_mem _ isBehind)

/-- What comes before an item that is there once stands in front of it. -/
theorem mem_of_pair_sublist {α : Type} {a b : α} {front back : List α} (nodup : (front ++ b :: back).Nodup)
    (pair : [a, b].Sublist (front ++ b :: back)) : a ∈ front := by
  have once : b ∉ back := (List.nodup_cons.1 (List.nodup_append.1 nodup).2.1).1
  obtain ⟨first, second, split, inFront, inBack⟩ := List.sublist_append_iff.1 pair
  cases first with
  | nil =>
    rw [List.nil_append] at split
    rw [← split] at inBack
    exact absurd (List.singleton_sublist.1 inBack.of_cons_cons) once
  | cons c first =>
    obtain rfl := (List.cons.inj split).1
    exact inFront.subset List.mem_cons_self

namespace Scene

/-- The box belongs to a node of the subgraph itself, or frames a child of it. -/
def Surrounds (scene : Scene Rat) (subgraph : Subgraph) (box : Box Rat) : Prop :=
  (∃ shape ∈ scene.shapes, shape.id ∈ subgraph.members ∧ shape.box = box) ∨
    ∃ cluster ∈ scene.clusters, cluster.id ∈ subgraph.children ∧ cluster.box = box

/-- Of a scene is said what the clusters enclose, and where those of outer subgraphs stand. -/
structure Encloses (graph : Graph) (metrics : Metrics Rat) (scene : Scene Rat) : Prop where
  distinct : (scene.clusters.map Cluster.id).Nodup
  /-- Every node of a subgraph is there to be surrounded. -/
  shown : ∀ subgraph ∈ graph.subgraphs, ∀ id ∈ subgraph.members, ∃ shape ∈ scene.shapes, shape.id = id
  framed : ∀ cluster ∈ scene.clusters, ∃ subgraph ∈ graph.subgraphs, subgraph.id = cluster.id ∧
    cluster.box.IsFrame metrics (scene.Surrounds subgraph)
  /-- The nodes of a subgraph lie in its cluster at whatever depth. -/
  inside : ∀ cluster ∈ scene.clusters, ∀ inner ∈ graph.subgraphs,
    Relation.ReflTransGen graph.IsParent cluster.id inner.id →
      ∀ shape ∈ scene.shapes, shape.id ∈ inner.members → shape.box.Within cluster.box
  /-- The clusters of all subgraphs around one stand in front of its own. -/
  behind : ∀ front cluster back, scene.clusters = front ++ cluster :: back →
    ∀ outer, Relation.TransGen graph.IsParent outer cluster.id →
      ∃ frame ∈ front, frame.id = outer ∧ cluster.box.Within frame.box

section laid

variable (grouped : graph.Grouped)
include grouped

/-- What a frame surrounds in a scene is what it was computed from, moved into place. -/
theorem surrounds_iff (isSubgraph : subgraph ∈ graph.subgraphs)
    (shapes : scene.shapes =
      graph.ids.map fun id => (Placement.find (Placement.boxes graph metrics) id).shift dx dy)
    (clusters : scene.clusters =
      (Cluster.ofGraph graph metrics (Placement.boxes graph metrics) order).map (Cluster.shift dx dy))
    (box : Box Rat) : scene.Surrounds subgraph box ↔
      ∃ base ∈ Cluster.around metrics (Placement.boxes graph metrics) order subgraph, base.shift dx dy = box := by
  have own : (∃ shape ∈ scene.shapes, shape.id ∈ subgraph.members ∧ shape.box = box) ↔
      ∃ id ∈ subgraph.members, (Placement.find (Placement.boxes graph metrics) id).box.shift dx dy = box := by
    rw [shapes]
    constructor
    · rintro ⟨shape, mem, isMember, rfl⟩
      obtain ⟨id, known, rfl⟩ := List.mem_map.1 mem
      have isId := (Placement.find_mem metrics known).2
      exact ⟨id, isId ▸ isMember, rfl⟩
    · rintro ⟨id, isMember, rfl⟩
      have known := grouped.members subgraph isSubgraph id isMember
      have isId := (Placement.find_mem metrics known).2
      exact ⟨_, List.mem_map_of_mem known, isId.symm ▸ isMember, rfl⟩
  have inner : (∃ cluster ∈ scene.clusters, cluster.id ∈ subgraph.children ∧ cluster.box = box) ↔
      ∃ child ∈ subgraph.children, ∃ base,
        ((Cluster.framesOf metrics (Placement.boxes graph metrics) order).lookup child).join = some base ∧
          base.shift dx dy = box := by
    rw [clusters]
    constructor
    · rintro ⟨cluster, mem, isChild, rfl⟩
      obtain ⟨base, isBase, rfl⟩ := List.mem_map.1 mem
      have known := Graph.child_mem grouped isSubgraph base.id isChild
      exact ⟨base.id, isChild, base.box, (Cluster.exists_mem_ofGraph known).1 ⟨base, isBase, rfl, rfl⟩, rfl⟩
    · rintro ⟨child, isChild, base, isFrame, rfl⟩
      have known := Graph.child_mem grouped isSubgraph child isChild
      obtain ⟨cluster, mem, rfl, rfl⟩ := (Cluster.exists_mem_ofGraph known).2 isFrame
      exact ⟨_, List.mem_map_of_mem mem, isChild, rfl⟩
  rw [Surrounds, own, inner]
  simp only [Cluster.around, List.mem_append, List.mem_map, List.mem_filterMap, or_and_right, exists_or,
    exists_exists_and_eq_and]
  refine or_congr_right ⟨?_, ?_⟩
  · rintro ⟨child, isChild, base, isFrame, same⟩
    exact ⟨base, ⟨child, isChild, isFrame⟩, same⟩
  · rintro ⟨base, ⟨child, isChild, isFrame⟩, same⟩
    exact ⟨child, isChild, base, isFrame, same⟩

variable (laid : ofGraph graph metrics = .ok scene)
include laid

theorem hugs_of_mem {cluster : Cluster Rat} (mem : cluster ∈ scene.clusters) :
    ∃ subgraph ∈ graph.subgraphs, subgraph.id = cluster.id ∧
      Box.Hugs metrics (scene.Surrounds subgraph) cluster.box := by
  obtain ⟨order, dx, dy, ordered, shapes, -, clusters⟩ := parts_of_ofGraph laid
  have subset := Graph.subset_of_nestingOrder ordered
  obtain ⟨nested, all⟩ := Graph.nested_of_nestingOrder ordered
  have surrounds (subgraph : Subgraph) (isSubgraph : subgraph ∈ graph.subgraphs) :=
    surrounds_iff grouped isSubgraph shapes clusters
  rw [clusters] at mem
  obtain ⟨base, isBase, rfl⟩ := List.mem_map.1 mem
  obtain ⟨subgraph, isSubgraph, framed⟩ := List.mem_filterMap.1 isBase
  obtain ⟨box, isFrame, rfl⟩ := Option.map_eq_some_iff.1 framed
  rw [(Cluster.lookup_framesOf grouped subset nested isSubgraph (all subgraph isSubgraph)).2] at isFrame
  exact ⟨subgraph, isSubgraph, rfl, (Cluster.hugs_frame? isFrame).shift (surrounds subgraph isSubgraph)⟩

theorem nodup_clusters : (scene.clusters.map Cluster.id).Nodup := by
  classical
  rw [clusters_of_ofGraph grouped laid]
  exact grouped.distinct.sublist (List.filter_sublist.map _)

/-- A subgraph that is drawn has the subgraph directly around it drawn before it. -/
theorem pair_sublist {cluster : Cluster Rat} (mem : cluster ∈ scene.clusters) {outer : String}
    (isParent : graph.IsParent outer cluster.id) : [outer, cluster.id].Sublist (scene.clusters.map Cluster.id) := by
  classical
  obtain ⟨parent, isSubgraph, rfl, isChild⟩ := isParent
  have ids := clusters_of_ofGraph grouped laid
  obtain ⟨child, isDrawn, isId⟩ := List.mem_map.1 (ids ▸ List.mem_map_of_mem mem)
  obtain ⟨-, populated⟩ := List.mem_filter.1 isDrawn
  obtain ⟨before, behind, split⟩ := List.append_of_mem isSubgraph
  have nested := nested_of_append (split ▸ grouped.nested)
  obtain ⟨other, isBehind, same⟩ := List.mem_map.1 (nested.1 cluster.id isChild)
  have inner : graph.Populated cluster.id := isId ▸ of_decide_eq_true populated
  have holds : graph.Populated parent.id :=
    (Graph.populated_iff grouped isSubgraph).2 (.inr ⟨cluster.id, isChild, inner⟩)
  have pair : [parent, other].Sublist graph.subgraphs := by
    rw [split]
    exact ((List.singleton_sublist.2 isBehind).cons_cons parent).trans (List.sublist_append_right _ _)
  have drawn := (pair.filter fun subgraph => decide (graph.Populated subgraph.id)).map Subgraph.id
  have both : [parent, other].filter (fun subgraph => decide (graph.Populated subgraph.id)) = [parent, other] :=
    List.filter_eq_self.2 (by simp [same, inner, holds])
  rw [← ids, both] at drawn
  rwa [← same]

variable (admissible : metrics.Admissible)
include admissible

theorem within_of_surrounds {cluster : Cluster Rat} (mem : cluster ∈ scene.clusters)
    (isSubgraph : subgraph ∈ graph.subgraphs) (same : subgraph.id = cluster.id) {box : Box Rat}
    (surrounds : scene.Surrounds subgraph box) : box.Within cluster.box := by
  obtain ⟨other, isOther, isSame, hugs⟩ := hugs_of_mem grouped laid mem
  obtain rfl := List.inj_on_of_nodup_map grouped.distinct isOther isSubgraph (isSame.trans same.symm)
  exact (Box.within_enlarged admissible box).trans (hugs.isFrame.contains box surrounds)

/-- The cluster of the subgraph directly around one contains its cluster and stands in front of it. -/
theorem parent_of_split {front back : List (Cluster Rat)} {cluster : Cluster Rat}
    (split : scene.clusters = front ++ cluster :: back) {outer : String} (isParent : graph.IsParent outer cluster.id) :
    ∃ frame ∈ front, frame.id = outer ∧ cluster.box.Within frame.box := by
  have nodup := nodup_clusters grouped laid
  have pair := pair_sublist grouped laid (by simp [split]) isParent
  rw [split, List.map_append, List.map_cons] at nodup pair
  obtain ⟨frame, inFront, rfl⟩ := List.mem_map.1 (mem_of_pair_sublist nodup pair)
  obtain ⟨parent, isSubgraph, isId, isChild⟩ := isParent
  refine ⟨frame, inFront, rfl, within_of_surrounds grouped laid admissible ?_ isSubgraph isId ?_⟩
  · rw [split]
    exact List.mem_append_left _ inFront
  · exact .inr ⟨cluster, by simp [split], isChild, rfl⟩

/-- So do the clusters of all subgraphs around one. -/
theorem outer_of_split {front back : List (Cluster Rat)} {cluster : Cluster Rat}
    (split : scene.clusters = front ++ cluster :: back) {outer : String}
    (path : Relation.TransGen graph.IsParent outer cluster.id) :
    ∃ frame ∈ front, frame.id = outer ∧ cluster.box.Within frame.box := by
  induction path using Relation.TransGen.head_induction_on with
  | single isParent => exact parent_of_split grouped laid admissible split isParent
  | head isParent _ ih =>
    obtain ⟨between, isBetween, rfl, inner⟩ := ih
    obtain ⟨first, rest, rfl⟩ := List.append_of_mem isBetween
    rw [List.append_assoc, List.cons_append] at split
    obtain ⟨frame, mem, isOuter, outer⟩ := parent_of_split grouped laid admissible split isParent
    exact ⟨frame, List.mem_append_left _ mem, isOuter, inner.trans outer⟩

/-- A node lies in the cluster of its subgraph, and in those around that one. -/
theorem inside_of_mem {cluster : Cluster Rat} (mem : cluster ∈ scene.clusters) {inner : Subgraph}
    (isInner : inner ∈ graph.subgraphs) (path : Relation.ReflTransGen graph.IsParent cluster.id inner.id)
    {shape : ShapeBox Rat} (isShape : shape ∈ scene.shapes) (isMember : shape.id ∈ inner.members) :
    shape.box.Within cluster.box := by
  classical
  have populated : graph.Populated inner.id := ⟨inner, isInner, .refl, List.ne_nil_of_mem isMember⟩
  have drawn : inner.id ∈ scene.clusters.map Cluster.id := by
    rw [clusters_of_ofGraph grouped laid]
    exact List.mem_map_of_mem (List.mem_filter.2 ⟨isInner, decide_eq_true populated⟩)
  obtain ⟨frame, isFrame, isId⟩ := List.mem_map.1 drawn
  have within : shape.box.Within frame.box :=
    within_of_surrounds grouped laid admissible isFrame isInner isId.symm (.inl ⟨shape, isShape, isMember, rfl⟩)
  have nodup := nodup_clusters grouped laid
  rcases Relation.reflTransGen_iff_eq_or_transGen.1 path with same | path
  · obtain rfl := List.inj_on_of_nodup_map nodup isFrame mem (isId.trans same)
    exact within
  · obtain ⟨front, back, split⟩ := List.append_of_mem isFrame
    obtain ⟨outer, isOuter, sameId, contains⟩ := outer_of_split grouped laid admissible split (isId ▸ path)
    have isCluster : outer ∈ scene.clusters := by
      rw [split]
      exact List.mem_append_left _ isOuter
    obtain rfl := List.inj_on_of_nodup_map nodup isCluster mem sameId
    exact within.trans contains

end laid

theorem encloses_of_ofGraph (wellFormed : graph.WellFormed) (grouped : graph.Grouped) (admissible : metrics.Admissible)
    (laid : ofGraph graph metrics = .ok scene) : scene.Encloses graph metrics where
  distinct := nodup_clusters grouped laid
  shown subgraph isSubgraph id isMember := by
    have ids : scene.shapes.map ShapeBox.id = graph.ids := by
      have nodes := congrArg (List.map Node.id) (nodes_of_ofGraph wellFormed.1 laid)
      rwa [List.map_map] at nodes
    exact List.mem_map.1 (ids ▸ grouped.members subgraph isSubgraph id isMember)
  framed cluster mem := by
    obtain ⟨subgraph, isSubgraph, isId, hugs⟩ := hugs_of_mem grouped laid mem
    exact ⟨subgraph, isSubgraph, isId, hugs.isFrame⟩
  inside cluster mem inner isInner path shape isShape isMember :=
    inside_of_mem grouped laid admissible mem isInner path isShape isMember
  behind front cluster back split outer path := outer_of_split grouped laid admissible split path

/-- In the scene of every diagram with a node, the box of a cluster is the least frame around its nodes and clusters
with the margins of the metrics, all that lies in its block at any depth is inside, and outer clusters come first. -/
theorem encloses_ofDiagram {diagram : Diagram} (built : Graph.ofDiagram diagram = .ok graph)
    (some : graph.nodes ≠ []) (admissible : metrics.Admissible) :
    ∃ scene, ofGraph graph metrics = .ok scene ∧ scene.Encloses graph metrics := by
  have wellFormed := Graph.wellFormed_ofDiagram built
  have grouped := Graph.grouped_ofDiagram built
  obtain ⟨scene, laid⟩ := ofGraph_ok wellFormed grouped some metrics
  exact ⟨scene, laid, encloses_of_ofGraph wellFormed grouped admissible laid⟩

/-- A node in a block of a block that has nothing else, beside an empty block. -/
theorem encloses_ofDiagram_nested :
    let inner : Statement := .subgraph "t" none [.node ⟨"C", none, none, default⟩ default] default
    let diagram : Diagram :=
      ⟨.LR, default, [.node ⟨"A", none, none, default⟩ default, .subgraph "s" none [inner] default,
        .subgraph "u" none [] default]⟩
    ∃ graph scene, Graph.ofDiagram diagram = .ok graph ∧ graph.nodes ≠ [] ∧
      (Metrics.standard : Metrics Rat).Admissible ∧ ofGraph graph Metrics.standard = .ok scene ∧
        scene.Encloses graph Metrics.standard ∧ ∃ outer ∈ scene.clusters, ∃ cluster ∈ scene.clusters,
          outer.id = "s" ∧ cluster.id = "t" ∧ cluster.box.Within outer.box := by
  classical
  intro inner diagram
  have built : Graph.ofDiagram diagram = .ok ⟨.LR, [⟨"A", "A", .rectangle⟩, ⟨"C", "C", .rectangle⟩], [],
    [⟨"s", none, [], ["t"]⟩, ⟨"t", none, ["C"], []⟩, ⟨"u", none, [], []⟩]⟩ := rfl
  obtain ⟨scene, laid, encloses⟩ := encloses_ofDiagram built (by decide) Metrics.admissible_standard
  refine ⟨_, scene, built, by decide, Metrics.admissible_standard, laid, encloses, ?_⟩
  have drawn : "t" ∈ scene.clusters.map Cluster.id := by
    rw [clusters_of_ofGraph (Graph.grouped_ofDiagram built) laid]
    refine List.mem_map.2 ⟨⟨"t", none, ["C"], []⟩, List.mem_filter.2 ⟨by decide, decide_eq_true ?_⟩, rfl⟩
    exact ⟨⟨"t", none, ["C"], []⟩, by decide, .refl, by decide⟩
  obtain ⟨cluster, isCluster, isId⟩ := List.mem_map.1 drawn
  obtain ⟨front, back, split⟩ := List.append_of_mem isCluster
  obtain ⟨outer, isOuter, sameId, contains⟩ := encloses.behind front cluster back split "s"
    (.single ⟨⟨"s", none, [], ["t"]⟩, by decide, rfl, by rw [isId]; decide⟩)
  have isFrame : outer ∈ scene.clusters := by
    rw [split]
    exact List.mem_append_left _ isOuter
  exact ⟨outer, isFrame, cluster, isCluster, sameId, isId, contains⟩

end Scene
end Flowchart
