import Flowchart.Proofs.Scene.Depiction
import Flowchart.Proofs.Scene.Separation

/-!
The routes of a finished scene. Moving a picture moves its routes along, so the edges of a scene run between its shapes
where these stand in the end. Two shapes of a rank have different seats, and the one with the lower seat stands in
front.
-/
namespace Flowchart

variable {direction : Direction} {graph : Graph} {metrics : Metrics Rat} {scene : Scene Rat} {dx dy : Rat}

theorem Box.middle_shift (box : Box Rat) (side : Side) :
    (box.shift dx dy).middle side = (box.middle side).shift dx dy := by
  cases side <;> simp only [middle, center, shift, right, bottom, Point.shift, Coordinate.two_eq, add_right_comm]

namespace Point

theorem midpoint_shift (a b : Point Rat) : (a.shift dx dy).midpoint (b.shift dx dy) = (a.midpoint b).shift dx dy := by
  simp only [midpoint, shift, Coordinate.two_eq, mk.injEq]
  constructor <;> ring

theorem midpoint_comm (a b : Point Rat) : a.midpoint b = b.midpoint a := by
  rw [midpoint, midpoint, add_comm a.x, add_comm a.y]

end Point

namespace Connector

variable {source target : ShapeBox Rat}

theorem ends_shift (direction : Direction) (source target : ShapeBox Rat) :
    ends direction (source.shift dx dy) (target.shift dx dy) =
      ((ends direction source target).1.shift dx dy, (ends direction source target).2.shift dx dy) := by
  simp only [ends, ShapeBox.shift, Box.middle_shift]
  split_ifs <;> rfl

theorem straight_shift (direction : Direction) (source target : ShapeBox Rat) (slot count : Nat) :
    straight direction (source.shift dx dy) (target.shift dx dy) slot count =
      (straight direction source target slot count).map (Point.shift dx dy) := by
  simp only [straight, ends_shift, Point.midpoint_shift]
  split
  · rfl
  · simp only [Point.shift, add_sub_add_right_eq_sub, List.map_cons, List.map_nil]
    split <;> simp only [add_right_comm]

theorem loop_shift (direction : Direction) (box : Box Rat) (slot : Nat) :
    loop direction (box.shift dx dy) slot = (loop direction box slot).map (Point.shift dx dy) := by
  rw [loop, loop]
  split <;>
    simp only [Box.shift, Box.right, Box.bottom, Point.shift, List.map_cons, List.map_nil, add_right_comm]

theorem labelPoint_shift {points : List (Point Rat)} (some : points ≠ []) :
    labelPoint (points.map (Point.shift dx dy)) = (labelPoint points).shift dx dy := by
  match points with
  | [start] | [start, stop] | [_, a, b, _] => exact Point.midpoint_shift _ _
  | [_, bend, _] => rfl
  | start :: a :: b :: c :: d :: rest =>
    simp only [List.map_cons, labelPoint, ← Point.midpoint_shift, List.getLastD_cons, List.getLastD_map]

section route

variable {boxes shapes : List (ShapeBox Rat)}

/-- The polyline of an edge. -/
def path (direction : Direction) (shapes : List (ShapeBox Rat)) (slot count : Nat) (edge : Edge) : List (Point Rat) :=
  if edge.isLoop then loop direction (Placement.find shapes edge.source).box slot
  else straight direction (Placement.find shapes edge.source) (Placement.find shapes edge.target) slot count

theorem path_loop {edge : Edge} (isLoop : edge.source = edge.target) (slot count : Nat) :
    path direction shapes slot count edge = loop direction (Placement.find shapes edge.source).box slot :=
  if_pos (beq_iff_eq.2 isLoop)

theorem path_straight {edge : Edge} (differ : edge.source ≠ edge.target) (slot count : Nat) :
    path direction shapes slot count edge =
      straight direction (Placement.find shapes edge.source) (Placement.find shapes edge.target) slot count :=
  if_neg fun isLoop => differ (beq_iff_eq.1 isLoop)

theorem points_route (direction : Direction) (shapes : List (ShapeBox Rat)) (index : Int) (slot count : Nat)
    (edge : Edge) : (route direction shapes index slot count edge).points = path direction shapes slot count edge :=
  rfl

theorem labelAt_route (direction : Direction) (shapes : List (ShapeBox Rat)) (index : Int) (slot count : Nat)
    (edge : Edge) : (route direction shapes index slot count edge).labelAt =
      if edge.label.getD "" = "" then none else some (labelPoint (path direction shapes slot count edge)) :=
  rfl

/-- However an edge bends, it leaves and enters at its ends. -/
theorem ends_straight (direction : Direction) (source target : ShapeBox Rat) (slot count : Nat) :
    (straight direction source target slot count).head? = some (ends direction source target).1 ∧
      (straight direction source target slot count).getLast? = some (ends direction source target).2 := by
  rw [straight]
  generalize ends direction source target = way
  obtain ⟨start, stop⟩ := way
  dsimp only
  split <;> exact ⟨rfl, rfl⟩

theorem route_shift {edge : Edge} (index : Int) (slot count : Nat)
    (source : Placement.find shapes edge.source = (Placement.find boxes edge.source).shift dx dy)
    (target : Placement.find shapes edge.target = (Placement.find boxes edge.target).shift dx dy) :
    (route direction boxes index slot count edge).shift dx dy = route direction shapes index slot count edge := by
  have points : path direction shapes slot count edge =
      (path direction boxes slot count edge).map (Point.shift dx dy) := by
    rw [path, path, source, target]
    split
    · exact loop_shift ..
    · exact straight_shift ..
  have long := length_points direction boxes index slot count edge
  have label : labelPoint (path direction shapes slot count edge) =
      (labelPoint (path direction boxes slot count edge)).shift dx dy := by
    rw [points]
    exact labelPoint_shift (List.ne_nil_of_length_pos (Nat.lt_of_lt_of_le Nat.zero_lt_two long))
  rw [shift, labelAt_route, points_route, ← points, apply_ite (Option.map (Point.shift dx dy)), Option.map_none,
    Option.map_some, ← label]
  rfl

theorem routeFrom_shift {all earlier edges : List Edge} (moved : ∀ edge ∈ edges,
      Placement.find shapes edge.source = (Placement.find boxes edge.source).shift dx dy ∧
        Placement.find shapes edge.target = (Placement.find boxes edge.target).shift dx dy) :
    (routeFrom direction boxes all earlier edges).map (Connector.shift dx dy) =
      routeFrom direction shapes all earlier edges := by
  induction edges generalizing earlier with
  | nil => rfl
  | cons edge edges ih =>
    obtain ⟨here, others⟩ := List.forall_mem_cons.1 moved
    rw [routeFrom, List.map_cons, route_shift _ _ _ here.1 here.2, ih others, routeFrom]

/-- A connector is the route of an edge, given the edges in front of it. -/
theorem exists_of_mem_routeFrom {all earlier edges : List Edge} {connector : Connector Rat}
    (mem : connector ∈ routeFrom direction boxes all earlier edges) : ∃ edge ∈ edges, ∃ index slot,
      connector = route direction boxes index slot (all.countP edge.isParallel) edge ∧
        earlier.countP edge.isParallel ≤ slot := by
  induction edges generalizing earlier with
  | nil => cases mem
  | cons edge edges ih =>
    rw [routeFrom] at mem
    rcases List.mem_cons.1 mem with rfl | mem
    · exact ⟨edge, List.mem_cons_self, _, _, rfl, Nat.le_refl _⟩
    · obtain ⟨other, isOther, index, slot, isRoute, bound⟩ := ih mem
      refine ⟨other, List.mem_cons_of_mem _ isOther, index, slot, isRoute, ?_⟩
      exact (List.sublist_cons_self edge earlier).countP_le.trans bound

end route

end Connector

namespace Scene

theorem ids_of_ofGraph (laid : Scene.ofGraph graph metrics = .ok scene) : scene.shapes.map ShapeBox.id = graph.ids := by
  obtain ⟨dx, dy, shapes⟩ := shapes_of_ofGraph laid
  rw [shapes, List.map_map]
  exact (List.map_congr_left fun id known => (Placement.find_mem metrics known).2).trans (List.map_id _)

/-- Every node has a shape. -/
theorem exists_shape (laid : Scene.ofGraph graph metrics = .ok scene) {id : String} (known : id ∈ graph.ids) :
    ∃ shape ∈ scene.shapes, shape.id = id :=
  List.mem_map.1 (ids_of_ofGraph laid ▸ known)

section find

variable (nodup : graph.ids.Nodup) (laid : Scene.ofGraph graph metrics = .ok scene)
include nodup laid

theorem shape?_of_mem {shape : ShapeBox Rat} (mem : shape ∈ scene.shapes) : scene.shape? shape.id = some shape := by
  rw [shape?]
  cases found : scene.shapes.find? (·.id == shape.id) with
  | none => exact absurd (beq_self_eq_true _) (List.find?_eq_none.1 found shape mem)
  | some other =>
    have same := List.find?_some found
    rw [← ids_of_ofGraph laid] at nodup
    exact congrArg some (List.inj_on_of_nodup_map nodup (List.mem_of_find?_eq_some found) mem (beq_iff_eq.1 same))

theorem find_of_mem {shape : ShapeBox Rat} (mem : shape ∈ scene.shapes) :
    Placement.find scene.shapes shape.id = shape := by
  have found : scene.shapes.find? (·.id == shape.id) = some shape := shape?_of_mem nodup laid mem
  rw [Placement.find, found, Option.getD_some]

/-- The edges of a scene run between its shapes. -/
theorem connectors_of_ofGraph (wellFormed : graph.WellFormed) :
    scene.connectors = Connector.ofGraph graph scene.shapes := by
  obtain ⟨order, dx, dy, -, shapes, connectors, -⟩ := parts_of_ofGraph laid
  have moved (id : String) (known : id ∈ graph.ids) :
      Placement.find scene.shapes id = (Placement.find (Placement.boxes graph metrics) id).shift dx dy := by
    have mem : (Placement.find (Placement.boxes graph metrics) id).shift dx dy ∈ scene.shapes := by
      rw [shapes]
      exact List.mem_map_of_mem known
    have found := find_of_mem nodup laid mem
    rwa [ShapeBox.id_shift, (Placement.find_mem metrics known).2] at found
  rw [connectors]
  exact Connector.routeFrom_shift fun edge mem =>
    ⟨moved _ (wellFormed.2 edge mem).1, moved _ (wellFormed.2 edge mem).2⟩

theorem edges_of_ofGraph (wellFormed : graph.WellFormed) :
    scene.connectors.map Connector.edge = graph.edges := by
  rw [connectors_of_ofGraph nodup laid wellFormed]
  exact Connector.edges_routeFrom ..

/-- A connector runs between the shapes of its ends. -/
theorem exists_shapes (wellFormed : graph.WellFormed) {connector : Connector Rat} (mem : connector ∈ scene.connectors) :
    ∃ source ∈ scene.shapes, source.id = connector.source ∧ ∃ target ∈ scene.shapes, target.id = connector.target ∧
      ∃ slot count, connector.points = if connector.source = connector.target then
          Connector.loop graph.direction source.box slot
        else Connector.straight graph.direction source target slot count := by
  rw [connectors_of_ofGraph nodup laid wellFormed] at mem
  obtain ⟨edge, isEdge, index, slot, rfl, -⟩ := Connector.exists_of_mem_routeFrom mem
  obtain ⟨source, isSource, sourceId⟩ := exists_shape laid (wellFormed.2 edge isEdge).1
  obtain ⟨target, isTarget, targetId⟩ := exists_shape laid (wellFormed.2 edge isEdge).2
  refine ⟨source, isSource, sourceId, target, isTarget, targetId, slot, graph.edges.countP edge.isParallel, ?_⟩
  rw [Connector.points_route, ← find_of_mem nodup laid isSource, ← find_of_mem nodup laid isTarget, sourceId, targetId]
  split
  · exact Connector.path_loop ‹_› ..
  · exact Connector.path_straight ‹_› ..

/-- Of two shapes of a rank, the later one has the higher seat. -/
theorem pairwise_order :
    scene.shapes.Pairwise fun shape later => shape.rank = later.rank → shape.order < later.order := by
  refine List.pairwise_iff_forall_sublist.2 ?_
  intro shape later sublist same
  obtain ⟨first, rest, split, isFirst, isRest⟩ := List.cons_sublist_iff.1 sublist
  obtain ⟨front, between, rfl⟩ := List.append_of_mem isFirst
  obtain ⟨others, back, rfl⟩ := List.append_of_mem (List.singleton_sublist.1 isRest)
  have atShape : scene.shapes = front ++ shape :: (between ++ others ++ later :: back) := by simp [split]
  have atLater : scene.shapes = (front ++ shape :: (between ++ others)) ++ later :: back := by simp [split]
  rw [orders_of_ofGraph nodup laid atShape, orders_of_ofGraph nodup laid atLater, List.countP_append,
    List.countP_cons_of_pos (by simp [same]), same]
  omega

/-- No two shapes of a rank have the same seat. -/
theorem order_ne {shape other : ShapeBox Rat} (mem : shape ∈ scene.shapes) (isOther : other ∈ scene.shapes)
    (differ : shape ≠ other) (same : shape.rank = other.rank) : shape.order ≠ other.order := by
  have ordered : scene.shapes.Pairwise fun shape later => shape.rank = later.rank → shape.order ≠ later.order :=
    (pairwise_order nodup laid).imp fun order same => (order same).ne
  have : Std.Symm fun shape later : ShapeBox Rat => shape.rank = later.rank → shape.order ≠ later.order :=
    ⟨fun _ _ order same => (order same.symm).symm⟩
  exact ordered.forall mem isOther differ same

end find

end Scene
end Flowchart
