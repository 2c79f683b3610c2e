import Flowchart.Proofs.Scene.Extent

/-!
The numbers that are drawn, and how large they can become. Routes lead through the middles of the sides of boxes and a
little beyond them, labels stand beside routes, and everything is moved at most by what it extends to.
-/
namespace Flowchart

open Number

variable {metrics : Metrics Float} {graph : Graph} {scene : Scene Float} {n l : Nat}

section numbers

def Point.numbers (point : Point Float) : List Float :=
  [point.x, point.y]

def Box.numbers (box : Box Float) : List Float :=
  [box.x, box.y, box.width, box.height]

def Caption.numbers (caption : Caption Float) : List Float :=
  caption.place.numbers

def Outline.numbers : Outline Float → List Float
  | .circle center radius => center.numbers ++ [radius]
  | .polygon corners => corners.flatMap Point.numbers
  | .rectangle box radius => box.numbers ++ [radius]

def ShapeBox.numbers (shape : ShapeBox Float) : List Float :=
  shape.outline.numbers ++ shape.caption.numbers

def Connector.numbers (metrics : Metrics Float) (connector : Connector Float) : List Float :=
  connector.points.flatMap Point.numbers ++
    connector.caption?.toList.flatMap fun caption => (caption.background metrics).numbers ++ caption.numbers

def Cluster.numbers (metrics : Metrics Float) (cluster : Cluster Float) : List Float :=
  cluster.box.numbers ++ (cluster.caption? metrics).toList.flatMap Caption.numbers

/-- The numbers of a picture, in the order of drawing. -/
def Scene.numbers (metrics : Metrics Float) (scene : Scene Float) : List Float :=
  [scene.width, scene.height, metrics.fontSize] ++ scene.clusters.flatMap (Cluster.numbers metrics) ++
    scene.connectors.flatMap (Connector.numbers metrics) ++ scene.shapes.flatMap ShapeBox.numbers

end numbers

namespace Connector

variable {direction : Direction} {boxes : List (ShapeBox Float)} {slot count : Nat}

theorem bounded_ends (direction : Direction) {source target : ShapeBox Float} (isSource : source.box.Bounded n)
    (isTarget : target.box.Bounded n) : (ends direction source target).1.Bounded (3 * n + 3) ∧
      (ends direction source target).2.Bounded (3 * n + 3) := by
  dsimp only [ends]
  split_ifs <;> exact ⟨isSource.middle _, isTarget.middle _⟩

/-- Counts of edges are small beside any unit. -/
theorem within_ofNat {count : Nat} (few : count ≤ 2 ^ 50) : Within 1 (Float.ofNat count) :=
  (upTo_ofNat few).within (by omega)

theorem bounded_straight {source target : ShapeBox Float} (isSource : source.box.Bounded n)
    (isTarget : target.box.Bounded n) (isSlot : slot ≤ 2 ^ 50) (few : count ≤ 2 ^ 50) :
    ∀ point ∈ straight direction source target slot count, point.Bounded (6 * n + 74) := by
  obtain ⟨start, stop⟩ := bounded_ends direction isSource isTarget
  have gap : UpTo 16 (parallelGap : Float) := upTo_of_steps (by decide +kernel) (by decide +kernel)
  have offset := ((within_ofNat isSlot).sub (within_ofNat (show count - 1 ≤ 2 ^ 50 by omega)).half).mul gap
    (by decide)
  have middle := start.midpoint stop
  dsimp only [straight]
  split_ifs with alone flat
  all_goals
    simp only [List.forall_mem_cons]
  · exact ⟨start.mono (by omega), stop.mono (by omega), List.forall_mem_nil _⟩
  · have bend := middle.y.add offset
    exact ⟨start.mono (by omega), ⟨middle.x.mono (by omega), bend.mono (by omega)⟩, stop.mono (by omega),
      List.forall_mem_nil _⟩
  · have bend := middle.x.add offset
    exact ⟨start.mono (by omega), ⟨bend.mono (by omega), middle.y.mono (by omega)⟩, stop.mono (by omega),
      List.forall_mem_nil _⟩

theorem bounded_loop {box : Box Float} (bounded : box.Bounded n) (few : slot + 1 ≤ 2 ^ 50) :
    ∀ point ∈ loop direction box slot, point.Bounded (7 * n + 26) := by
  have first : UpTo 24 (loopReach : Float) := upTo_of_steps (by decide +kernel) (by decide +kernel)
  have three : UpTo 3 3.0 := upTo_of_steps (by decide +kernel) (by decide +kernel)
  have reach := first.mul (within_ofNat few) (by decide)
  dsimp only [loop]
  split_ifs
  all_goals
    simp only [List.forall_mem_cons]
  · have left := (bounded.left.add bounded.width.quarter).mono (show _ ≤ 7 * n + 26 by omega)
    have right := (bounded.left.add (three.mul bounded.width (by decide)).quarter).mono
      (show _ ≤ 7 * n + 26 by omega)
    have near := bounded.bottom.mono (show _ ≤ 7 * n + 26 by omega)
    have far := (bounded.bottom.add reach).mono (show _ ≤ 7 * n + 26 by omega)
    exact ⟨⟨left, near⟩, ⟨left, far⟩, ⟨right, far⟩, ⟨right, near⟩, List.forall_mem_nil _⟩
  · have top := (bounded.top.add bounded.height.quarter).mono (show _ ≤ 7 * n + 26 by omega)
    have bottom := (bounded.top.add (three.mul bounded.height (by decide)).quarter).mono
      (show _ ≤ 7 * n + 26 by omega)
    have near := bounded.right.mono (show _ ≤ 7 * n + 26 by omega)
    have far := (bounded.right.add reach).mono (show _ ≤ 7 * n + 26 by omega)
    exact ⟨⟨near, top⟩, ⟨far, top⟩, ⟨far, bottom⟩, ⟨near, bottom⟩, List.forall_mem_nil _⟩

theorem bounded_labelPoint {points : List (Point Float)} (each : ∀ point ∈ points, point.Bounded n) :
    (labelPoint points).Bounded (2 * n + 2) := by
  unfold labelPoint
  split
  · exact (each _ (by simp)).mono (by omega)
  · exact (each _ (by simp)).midpoint (each _ (by simp))
  · rename_i start rest _ _
    exact (each _ List.mem_cons_self).midpoint (each _ List.getLastD_mem_cons)
  · exact ⟨within_default.mono (Nat.zero_le _), within_default.mono (Nat.zero_le _)⟩

/-- The points of a connector lie within a bound, and so does the place of its label, which is not too long. -/
structure Bounded (n l : Nat) (connector : Connector Float) : Prop where
  points : ∀ point ∈ connector.points, point.Bounded n
  place : ∀ place ∈ connector.labelAt, place.Bounded n
  label : ∀ label ∈ connector.label, label.length ≤ l

variable {connector : Connector Float} {m : Nat}

theorem Bounded.mono (bounded : connector.Bounded n l) (le : n ≤ m) : connector.Bounded m l where
  points point mem := (bounded.points point mem).mono le
  place place mem := (bounded.place place mem).mono le
  label := bounded.label

theorem bounded_route (each : ∀ id, (Placement.find boxes id).box.Bounded n) (index : Int)
    (isSlot : slot + 1 ≤ 2 ^ 50) (few : count ≤ 2 ^ 50) {edge : Edge} (short : ∀ label ∈ edge.label, label.length ≤ l) :
    (route direction boxes index slot count edge).Bounded (14 * n + 150) l := by
  have points : ∀ point ∈ (route direction boxes index slot count edge).points, point.Bounded (7 * n + 74) := by
    dsimp only [route]
    split_ifs
    · exact fun point mem => (bounded_loop (each _) isSlot point mem).mono (by omega)
    · exact fun point mem => (bounded_straight (each _) (each _) (by omega) few point mem).mono (by omega)
  refine ⟨fun point mem => (points point mem).mono (by omega), ?_, short⟩
  intro place isPlace
  dsimp only [route] at isPlace points
  split at isPlace
  · cases isPlace
  · cases isPlace
    exact (bounded_labelPoint points).mono (by omega)

theorem bounded_routeFrom {all earlier edges : List Edge} (each : ∀ id, (Placement.find boxes id).box.Bounded n)
    (few : all.length ≤ 2 ^ 50) (room : earlier.length + edges.length ≤ all.length)
    (short : ∀ edge ∈ edges, ∀ label ∈ edge.label, label.length ≤ l) :
    ∀ connector ∈ routeFrom direction boxes all earlier edges, connector.Bounded (14 * n + 150) l := by
  induction edges generalizing earlier with
  | nil => exact List.forall_mem_nil _
  | cons edge edges ih =>
    obtain ⟨first, short⟩ := List.forall_mem_cons.1 short
    rw [List.length_cons] at room
    have isSlot : earlier.countP edge.isParallel ≤ earlier.length := List.countP_le_length
    have isCount : all.countP edge.isParallel ≤ all.length := List.countP_le_length
    rw [routeFrom]
    refine List.forall_mem_cons.2 ⟨bounded_route each _ (by omega) (by omega) first, ih ?_ short⟩
    rw [List.length_cons]
    omega

theorem Bounded.shift (bounded : connector.Bounded n l) {dx dy : Float} (right : Within m dx) (down : Within m dy) :
    (connector.shift dx dy).Bounded (n + m + 1) l where
  points := List.forall_mem_map.2 fun point mem => (bounded.points point mem).shift right down
  place := by
    intro moved isMoved
    obtain ⟨place, isPlace, rfl⟩ := Option.map_eq_some_iff.1 isMoved
    exact (bounded.place place isPlace).shift right down
  label := bounded.label

theorem bounded_headD (bounded : connector.Bounded n l) : (connector.points.headD default).Bounded n := by
  cases points : connector.points with
  | nil => exact ⟨within_default.mono (Nat.zero_le _), within_default.mono (Nat.zero_le _)⟩
  | cons point rest => exact bounded.points point (points ▸ List.mem_cons_self)

/-- Both corners of the place that a label takes up lie within a bound. -/
theorem bounded_labelBounds (modest : metrics.Modest) (few : l ≤ 2 ^ 50) (bounded : connector.Bounded n l) :
    Point.Bounded (n + 2 * l + 7) ⟨(connector.labelBounds metrics).1.1, (connector.labelBounds metrics).1.2⟩ ∧
      Point.Bounded (n + 2 * l + 7) ⟨(connector.labelBounds metrics).2.1, (connector.labelBounds metrics).2.2⟩ := by
  have head : (connector.points.headD default).Bounded (n + 2 * l + 7) := (bounded_headD bounded).mono (by omega)
  have start : Point.Bounded (n + 2 * l + 7) ⟨(labelBounds.start connector).1.1, (labelBounds.start connector).1.2⟩ ∧
      Point.Bounded (n + 2 * l + 7) ⟨(labelBounds.start connector).2.1, (labelBounds.start connector).2.2⟩ :=
    ⟨head, head⟩
  rw [labelBounds]
  split
  · rename_i label place isLabel isPlace
    split
    · exact start
    · obtain ⟨width, height⟩ := Metrics.within_edgeLabelSize modest few (bounded.label label isLabel)
      have place := bounded.place place isPlace
      exact ⟨⟨(place.x.sub width.half).mono (by omega), (place.y.sub height.half).mono (by omega)⟩,
        ⟨(place.x.add width.half).mono (by omega), (place.y.add height.half).mono (by omega)⟩⟩
  · exact start

end Connector

namespace Layout.Content

variable {content : Content Float} {m : Nat}

/-- All that is laid out lies within a bound, and no label is too long. -/
structure Bounded (n l : Nat) (content : Content Float) : Prop where
  boxes : ∀ shape ∈ content.boxes, shape.box.Bounded n
  clusters : ∀ cluster ∈ content.clusters, cluster.box.Bounded n
  connectors : ∀ connector ∈ content.connectors, connector.Bounded n l

section edges

variable (modest : metrics.Modest) (few : l ≤ 2 ^ 50) (bounded : content.Bounded n l)
include modest few bounded

theorem within_lefts : ∀ x ∈ content.lefts metrics, Within (n + 2 * l + 7) x := by
  simp only [lefts, List.forall_mem_append, List.forall_mem_map, List.forall_mem_flatMap, List.forall_mem_singleton]
  refine ⟨⟨fun box mem => (bounded.boxes box mem).left.mono (by omega),
    fun cluster mem => (bounded.clusters cluster mem).left.mono (by omega)⟩, fun connector mem => ⟨?_, ?_⟩⟩
  · exact fun point isPoint => ((bounded.connectors connector mem).points point isPoint).x.mono (by omega)
  · exact (Connector.bounded_labelBounds modest few (bounded.connectors connector mem)).1.x

theorem within_tops : ∀ y ∈ content.tops metrics, Within (n + 2 * l + 7) y := by
  simp only [tops, List.forall_mem_append, List.forall_mem_map, List.forall_mem_flatMap, List.forall_mem_singleton]
  refine ⟨⟨fun box mem => (bounded.boxes box mem).top.mono (by omega),
    fun cluster mem => (bounded.clusters cluster mem).top.mono (by omega)⟩, fun connector mem => ⟨?_, ?_⟩⟩
  · exact fun point isPoint => ((bounded.connectors connector mem).points point isPoint).y.mono (by omega)
  · exact (Connector.bounded_labelBounds modest few (bounded.connectors connector mem)).1.y

theorem within_rights : ∀ x ∈ content.rights metrics, Within (n + 2 * l + 7) x := by
  simp only [rights, List.forall_mem_append, List.forall_mem_map, List.forall_mem_flatMap]
  refine ⟨⟨⟨fun box mem => (bounded.boxes box mem).right.mono (by omega),
    fun cluster mem => (bounded.clusters cluster mem).right.mono (by omega)⟩, fun connector mem point isPoint => ?_⟩,
    fun connector mem => ?_⟩
  · exact ((bounded.connectors connector mem).points point isPoint).x.mono (by omega)
  · exact (Connector.bounded_labelBounds modest few (bounded.connectors connector mem)).2.x

theorem within_bottoms : ∀ y ∈ content.bottoms metrics, Within (n + 2 * l + 7) y := by
  simp only [bottoms, List.forall_mem_append, List.forall_mem_map, List.forall_mem_flatMap]
  refine ⟨⟨⟨fun box mem => (bounded.boxes box mem).bottom.mono (by omega),
    fun cluster mem => (bounded.clusters cluster mem).bottom.mono (by omega)⟩, fun connector mem point isPoint => ?_⟩,
    fun connector mem => ?_⟩
  · exact ((bounded.connectors connector mem).points point isPoint).y.mono (by omega)
  · exact (Connector.bounded_labelBounds modest few (bounded.connectors connector mem)).2.y

end edges

theorem within_offset (modest : metrics.Modest) {edges : List Float} (each : ∀ x ∈ edges, Within n x) :
    Within (n + 2) (offset metrics edges) :=
  (within_zero.mono (Nat.zero_le _)).larger ((modest.padding.sub (within_minimum each)).mono (by omega))

theorem Bounded.moved {dx dy : Float} (bounded : content.Bounded n l) (ids : List String) (right : Within m dx)
    (down : Within m dy) : ((content.arrange ids).shift dx dy).Bounded (3 * n + m + 6) l where
  boxes := by
    simp only [arrange, shift, List.forall_mem_map]
    exact fun id _ => ((Placement.bounded_find bounded.boxes id).shift right down).mono (by omega)
  clusters := List.forall_mem_map.2 fun cluster mem => ((bounded.clusters cluster mem).shift right down).mono (by omega)
  connectors := List.forall_mem_map.2 fun connector mem =>
    ((bounded.connectors connector mem).shift right down).mono (by omega)

end Layout.Content

theorem Box.Bounded.within_numbers {box : Box Float} (bounded : box.Bounded n) :
    ∀ x ∈ box.numbers, Number.Within (2 * n + 1) x := by
  simp only [Box.numbers, List.forall_mem_cons]
  exact ⟨bounded.left.mono (by omega), bounded.top.mono (by omega), bounded.width, bounded.height,
    List.forall_mem_nil _⟩

theorem Point.Bounded.within_numbers {point : Point Float} (bounded : point.Bounded n) :
    ∀ x ∈ point.numbers, Within n x := by
  simp only [Point.numbers, List.forall_mem_cons]
  exact ⟨bounded.x, bounded.y, List.forall_mem_nil _⟩

theorem ShapeBox.within_numbers {shape : ShapeBox Float} (bounded : shape.box.Bounded n) :
    ∀ x ∈ shape.numbers, Within (3 * n + 3) x := by
  have text : ∀ x ∈ shape.caption.numbers, Within (3 * n + 3) x := bounded.center.within_numbers
  refine List.forall_mem_append.2 ⟨?_, text⟩
  rw [ShapeBox.outline]
  cases shape.shape with
  | circle =>
    refine List.forall_mem_append.2 ⟨bounded.center.within_numbers, List.forall_mem_singleton.2 ?_⟩
    exact bounded.width.half.mono (by omega)
  | rhombus =>
    refine List.forall_mem_flatMap.2 ?_
    simp only [List.forall_mem_cons]
    exact ⟨(bounded.middle _).within_numbers, (bounded.middle _).within_numbers, (bounded.middle _).within_numbers,
      (bounded.middle _).within_numbers, List.forall_mem_nil _⟩
  | rectangle =>
    refine List.forall_mem_append.2 ⟨fun x mem => (bounded.within_numbers x mem).mono (by omega), ?_⟩
    exact List.forall_mem_singleton.2 (within_zero.mono (Nat.zero_le _))
  | rounded =>
    refine List.forall_mem_append.2 ⟨fun x mem => (bounded.within_numbers x mem).mono (by omega), ?_⟩
    exact List.forall_mem_singleton.2 (bounded.height.quarter.mono (by omega))

theorem Cluster.within_numbers {cluster : Cluster Float} (modest : metrics.Modest) (bounded : cluster.box.Bounded n) :
    ∀ x ∈ cluster.numbers metrics, Within (3 * n + 7) x := by
  have box : ∀ x ∈ cluster.box.numbers, Within (3 * n + 7) x :=
    fun x mem => (bounded.within_numbers x mem).mono (by omega)
  have gap : UpTo 2 2.0 := upTo_of_steps (by decide +kernel) (by decide +kernel)
  have x := (bounded.left.add bounded.width.half).mono (show _ ≤ 3 * n + 7 by omega)
  have y := ((bounded.top.add (Metrics.within_lineHeight modest).half).add (gap.within (by decide))).mono
    (show _ ≤ 3 * n + 7 by omega)
  refine List.forall_mem_append.2 ⟨box, List.forall_mem_flatMap.2 fun caption isCaption => ?_⟩
  rw [Option.mem_toList, Cluster.caption?] at isCaption
  split at isCaption
  · split at isCaption
    · cases isCaption
    · cases isCaption
      exact Point.Bounded.within_numbers ⟨x, y⟩
  · cases isCaption

theorem Connector.within_numbers {connector : Connector Float} (modest : metrics.Modest) (few : l ≤ 2 ^ 50)
    (bounded : connector.Bounded n l) : ∀ x ∈ connector.numbers metrics, Within (n + 2 * l + 7) x := by
  refine List.forall_mem_append.2 ⟨List.forall_mem_flatMap.2 fun point mem x isNumber => ?_,
    List.forall_mem_flatMap.2 fun caption isCaption => ?_⟩
  · exact ((bounded.points point mem).within_numbers x isNumber).mono (by omega)
  · rw [Option.mem_toList, Connector.caption?] at isCaption
    split at isCaption
    · rename_i label place isLabel isPlace
      split at isCaption
      · cases isCaption
      · cases isCaption
        obtain ⟨width, height⟩ := Metrics.within_edgeLabelSize modest few (bounded.label label isLabel)
        have place := bounded.place place isPlace
        refine List.forall_mem_append.2 ⟨?_, fun x mem => (place.within_numbers x mem).mono (by omega)⟩
        simp only [Box.numbers, Caption.background, List.forall_mem_cons]
        exact ⟨(place.x.sub width.half).mono (by omega), (place.y.sub height.half).mono (by omega),
          width.mono (by omega), height.mono (by omega), List.forall_mem_nil _⟩
    · cases isCaption

open Layout Content in
/-- What is drawn of content within a bound is at most a little more than twelve times as large. -/
theorem Layout.Content.Bounded.within_numbers {content : Content Float} (modest : metrics.Modest) (few : l ≤ 2 ^ 50)
    (bounded : content.Bounded n l) (direction : Direction) (ids : List String) :
    ∀ x ∈ (content.scene direction metrics ids).numbers metrics, Within (12 * n + 6 * l + 52) x := by
  have moved := bounded.moved ids (within_offset modest (within_lefts modest few bounded))
    (within_offset modest (within_tops modest few bounded))
  have width := (within_maximum (within_rights modest few moved)).add modest.padding
  have height := (within_maximum (within_bottoms modest few moved)).add modest.padding
  simp only [Scene.numbers, List.forall_mem_append, List.forall_mem_cons, List.forall_mem_flatMap]
  refine ⟨⟨⟨⟨width.mono (by omega), height.mono (by omega), modest.fontSize.mono (by omega), List.forall_mem_nil _⟩,
    ?_⟩, ?_⟩, ?_⟩
  · exact fun cluster mem x isNumber =>
      (Cluster.within_numbers modest (moved.clusters cluster mem) x isNumber).mono (by omega)
  · exact fun connector mem x isNumber =>
      (Connector.within_numbers modest few (moved.connectors connector mem) x isNumber).mono (by omega)
  · exact fun shape mem x isNumber => (ShapeBox.within_numbers (moved.boxes shape mem) x isNumber).mono (by omega)

/-- The numbers of a picture grow at most with the square of the size of its graph. -/
theorem Scene.within_numbers (modest : metrics.Modest) (few : n ≤ 2 ^ 50) (small : graph.Small n)
    (nodup : graph.ids.Nodup) (grouped : graph.Grouped) (laid : Scene.ofGraph graph metrics = .ok scene) :
    ∀ x ∈ scene.numbers metrics, Within (2 ^ 12 * (n + 2) ^ 2) x := by
  have some : graph.nodes ≠ [] := by
    intro none
    rw [Scene.ofGraph, if_pos none] at laid
    cases laid
  obtain ⟨order, ordered, rfl⟩ := content_of_ofGraph laid
  have boxes := Placement.bounded_boxes modest few small nodup some
  have found := Placement.bounded_find boxes
  have edges := small.edges
  have subgraphs := small.subgraphs
  have bounded : Layout.Content.Bounded (14 * (Placement.extent n + 1) + 150 + 9 * n) n
      ⟨Placement.boxes graph metrics, Cluster.ofGraph graph metrics (Placement.boxes graph metrics) order,
        Connector.ofGraph graph (Placement.boxes graph metrics)⟩ := by
    constructor
    · exact fun box mem => (boxes box mem).mono (by omega)
    · intro cluster mem
      obtain ⟨subgraph, isSubgraph, framed⟩ := List.mem_filterMap.1 mem
      obtain ⟨box, isFrame, rfl⟩ := Option.map_eq_some_iff.1 framed
      exact (Cluster.bounded_framesOf modest grouped found (Graph.subset_of_nestingOrder ordered) isFrame).mono
        (by omega)
    · intro connector mem
      have none : List.length ([] : List Edge) + graph.edges.length ≤ graph.edges.length := by simp
      exact (Connector.bounded_routeFrom found (by omega) none small.edgeLabels connector mem).mono (by omega)
  intro x mem
  refine (bounded.within_numbers modest few _ _ x mem).mono ?_
  rw [Placement.extent]
  nlinarith

end Flowchart
