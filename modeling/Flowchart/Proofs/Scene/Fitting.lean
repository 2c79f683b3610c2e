import Flowchart.Proofs.Scene.Canvas

/-!
Every scene of a diagram fits its canvas. All that is drawn has an extent that is not negative, and the first node of
the widest rank and the deepest node of the first band stand at the padding, or before it once they are framed.
-/
namespace Flowchart

variable {metrics : Metrics Rat} {graph : Graph} {order : List Subgraph} {boxes : List (ShapeBox Rat)}

namespace Metrics.Admissible

variable (admissible : metrics.Admissible)
include admissible

theorem fontSize_pos : 0 < metrics.fontSize := by
  simpa using admissible.fontSize

theorem padding_nonneg : 0 ≤ metrics.padding := by
  simpa using admissible.padding

theorem lineHeight_nonneg : 0 ≤ metrics.lineHeight := by
  have size := admissible.fontSize_pos
  rw [Metrics.lineHeight]
  norm_num
  positivity

end Metrics.Admissible

theorem Caption.isProper_background (admissible : metrics.Admissible) (caption : Caption Rat) :
    (caption.background metrics).IsProper := by
  have size := admissible.fontSize_pos
  simp only [Box.IsProper, background, Metrics.edgeLabelSize, Metrics.textWidth, Metrics.charWidth,
    Metrics.lineHeight]
  norm_num
  constructor
  · positivity
  · positivity

theorem Connector.isProper_of_mem (admissible : metrics.Admissible) {connector : Connector Rat} {box : Box Rat}
    (mem : box ∈ connector.drawn metrics) : box.IsProper := by
  rcases List.mem_append.1 mem with isPoint | isLabel
  · obtain ⟨point, -, rfl⟩ := List.mem_map.1 isPoint
    exact ⟨le_rfl, le_rfl⟩
  · rw [Option.mem_toList, Option.map_eq_some_iff] at isLabel
    obtain ⟨caption, -, rfl⟩ := isLabel
    exact caption.isProper_background admissible

/-- The box found for an id is that of a node, or one without extent at the origin. -/
theorem Placement.isProper_find (admissible : metrics.Admissible) (graph : Graph) (id : String) :
    (find (Placement.boxes graph metrics) id).box.IsProper := by
  rw [find]
  cases found : (Placement.boxes graph metrics).find? (·.id == id) with
  | none => exact ⟨le_rfl, le_rfl⟩
  | some shape =>
    obtain ⟨rank, mem⟩ := mem_boxes.1 (List.mem_of_find?_eq_some found)
    obtain ⟨width, height⟩ := size_of_mem admissible mem
    exact ⟨le_of_lt width, le_of_lt height⟩

namespace Cluster

variable (admissible : metrics.Admissible)
include admissible

/-- A frame is proper if what it surrounds is. -/
theorem isProper_of_frame? {surrounded : List (Box Rat)} {frame : Box Rat} (proper : ∀ box ∈ surrounded, box.IsProper)
    (isFrame : frame? metrics surrounded = some frame) : frame.IsProper := by
  cases surrounded with
  | nil => cases isFrame
  | cons first rest =>
    have ⟨width, depth⟩ := proper first List.mem_cons_self
    have mem : first ∈ first :: rest := List.mem_cons_self
    have left := Coordinate.minimum_le (List.mem_map.2 ⟨first, mem, rfl⟩ : first.x ∈ (first :: rest).map Box.x)
    have top := Coordinate.minimum_le (List.mem_map.2 ⟨first, mem, rfl⟩ : first.y ∈ (first :: rest).map Box.y)
    have right := Coordinate.le_maximum
      (List.mem_map.2 ⟨first, mem, rfl⟩ : first.right ∈ (first :: rest).map Box.right)
    have bottom := Coordinate.le_maximum
      (List.mem_map.2 ⟨first, mem, rfl⟩ : first.bottom ∈ (first :: rest).map Box.bottom)
    have padding := admissible.padding_nonneg
    have title := admissible.lineHeight_nonneg
    cases isFrame
    simp only [Coordinate.two_eq, Box.right, Box.bottom] at *
    constructor
    · simp only
      linarith
    · simp only
      linarith

/-- All frames among those computed so far are proper. -/
def ProperFrames (frames : Frames Rat) : Prop :=
  ∀ id frame, (id, some frame) ∈ frames → frame.IsProper

omit admissible in
theorem ProperFrames.isProper_of_lookup {frames : Frames Rat} (proper : ProperFrames frames) {id : String}
    {frame : Box Rat} (found : (frames.lookup id).join = some frame) : frame.IsProper := by
  obtain ⟨front, back, split, -⟩ := List.lookup_eq_some_iff.1 (Option.join_eq_some_iff.1 found)
  exact proper id frame (split ▸ List.mem_append_right _ List.mem_cons_self)

theorem properFrames_addFrame (proper : ∀ id, (Placement.find boxes id).box.IsProper) {frames : Frames Rat}
    (before : ProperFrames frames) (subgraph : Subgraph) : ProperFrames (addFrame metrics boxes frames subgraph) := by
  intro id frame mem
  rcases List.mem_append.1 mem with old | new
  · exact before id frame old
  · have isFrame := (congrArg Prod.snd (List.mem_singleton.1 new)).symm
    refine isProper_of_frame? admissible ?_ isFrame
    intro box isSurrounded
    rcases List.mem_append.1 isSurrounded with own | inner
    · obtain ⟨member, -, rfl⟩ := List.mem_map.1 own
      exact proper member
    · obtain ⟨child, -, found⟩ := List.mem_filterMap.1 inner
      exact before.isProper_of_lookup found

theorem properFrames_foldl (proper : ∀ id, (Placement.find boxes id).box.IsProper) (order : List Subgraph)
    {frames : Frames Rat} (before : ProperFrames frames) :
    ProperFrames (order.foldl (addFrame metrics boxes) frames) := by
  induction order generalizing frames with
  | nil => exact before
  | cons subgraph order ih => exact ih (properFrames_addFrame admissible proper before subgraph)

theorem isProper_of_mem (proper : ∀ id, (Placement.find boxes id).box.IsProper) {cluster : Cluster Rat}
    (mem : cluster ∈ ofGraph graph metrics boxes order) : cluster.box.IsProper := by
  have none : ProperFrames [] := nofun
  have frames := properFrames_foldl admissible proper order none
  obtain ⟨subgraph, -, isCluster⟩ := List.mem_filterMap.1 mem
  obtain ⟨frame, found, rfl⟩ := Option.map_eq_some_iff.1 isCluster
  exact frames.isProper_of_lookup found

end Cluster

namespace Layout

open Placement (find)

theorem isProper_of_mem_drawn (admissible : metrics.Admissible) {box : Box Rat}
    (mem : box ∈ (content graph metrics order).drawn metrics) : box.IsProper := by
  rcases List.mem_append.1 mem with isFramed | isDrawn
  · rcases List.mem_append.1 isFramed with ofShape | ofCluster
    · obtain ⟨shape, isShape, rfl⟩ := List.mem_map.1 ofShape
      obtain ⟨rank, inRow⟩ := Placement.mem_boxes.1 isShape
      obtain ⟨width, height⟩ := Placement.size_of_mem admissible inRow
      exact ⟨le_of_lt width, le_of_lt height⟩
    · obtain ⟨cluster, isCluster, rfl⟩ := List.mem_map.1 ofCluster
      exact Cluster.isProper_of_mem admissible (Placement.isProper_find admissible graph) isCluster
  · obtain ⟨connector, -, isDrawn⟩ := List.mem_flatMap.1 isDrawn
    exact Connector.isProper_of_mem admissible isDrawn

theorem points_of_mem {connector : Connector Rat} (mem : connector ∈ (content graph metrics order).connectors) :
    connector.points ≠ [] := by
  have long := Connector.length_points_of_mem mem
  intro none
  rw [none] at long
  cases long

/-- The order of the graph lists the boxes of its nodes and no others. -/
theorem mem_map_find_iff (nodup : graph.ids.Nodup) (shape : ShapeBox Rat) :
    shape ∈ graph.ids.map (find (Placement.boxes graph metrics)) ↔ shape ∈ Placement.boxes graph metrics := by
  constructor
  · intro mem
    obtain ⟨id, known, rfl⟩ := List.mem_map.1 mem
    exact (Placement.find_mem metrics known).1
  · intro mem
    refine List.mem_map.2 ⟨shape.id, Placement.mem_ids_boxes.1 (List.mem_map_of_mem mem), ?_⟩
    exact Placement.find_of_mem nodup mem

/-- A node stands at the padding on each axis. -/
theorem exists_at_padding (nodup : graph.ids.Nodup) (some : graph.nodes ≠ []) (metrics : Metrics Rat) :
    (∃ shape ∈ Placement.boxes graph metrics, shape.box.x = metrics.padding) ∧
      ∃ shape ∈ Placement.boxes graph metrics, shape.box.y = metrics.padding := by
  have flow : ∃ shape ∈ Placement.boxes graph metrics, shape.box.flowStart graph.direction = metrics.padding :=
    Placement.exists_flowStart nodup some
  have cross : ∃ shape ∈ Placement.boxes graph metrics, shape.box.crossStart graph.direction = metrics.padding :=
    Placement.exists_crossStart nodup some
  simp only [Box.flowStart] at flow
  simp only [Box.crossStart] at cross
  cases horizontal : graph.direction.isHorizontal with
  | true =>
    simp only [horizontal, if_true] at flow cross
    exact ⟨flow, cross⟩
  | false =>
    simp only [horizontal, Bool.false_eq_true, if_false] at flow cross
    exact ⟨cross, flow⟩

end Layout

namespace Scene

theorem fits_of_ofGraph {scene : Scene Rat} (nodup : graph.ids.Nodup) (some : graph.nodes ≠ [])
    (admissible : metrics.Admissible) (laid : Scene.ofGraph graph metrics = .ok scene) : scene.Fits metrics := by
  obtain ⟨order, -, rfl⟩ := eq_of_ofGraph laid
  obtain ⟨⟨leftmost, isLeftmost, left⟩, topmost, isTopmost, top⟩ := Layout.exists_at_padding nodup some metrics
  refine fits_of_content graph.direction ?filled ?same ?proper ?left ?top
  case filled => exact fun connector mem => Layout.points_of_mem mem
  case same => exact Layout.mem_map_find_iff nodup
  case proper => exact fun box mem => Layout.isProper_of_mem_drawn admissible mem
  case left =>
    refine ⟨leftmost.box.x, ?_, le_of_eq left⟩
    exact List.mem_append_left _ (List.mem_append_left _ (List.mem_map.2 ⟨leftmost, isLeftmost, rfl⟩))
  case top =>
    refine ⟨topmost.box.y, ?_, le_of_eq top⟩
    exact List.mem_append_left _ (List.mem_append_left _ (List.mem_map.2 ⟨topmost, isTopmost, rfl⟩))

theorem fits_ofDiagram {diagram : Diagram} (described : Graph.ofDiagram diagram = .ok graph)
    (some : graph.nodes ≠ []) (admissible : metrics.Admissible) :
    ∃ scene, Scene.ofGraph graph metrics = .ok scene ∧ scene.Fits metrics := by
  have wellFormed := Graph.wellFormed_ofDiagram described
  obtain ⟨scene, laid⟩ := ofGraph_ok wellFormed (Graph.grouped_ofDiagram described) some metrics
  exact ⟨scene, laid, fits_of_ofGraph wellFormed.1 some admissible laid⟩

/-- A framed node with a labelled loop, beside two parallel edges. -/
theorem fits_ofDiagram_looped :
    ∃ diagram graph, Diagram.ofSource "graph RL\nsubgraph s\nA-->|again|A\nend\nA-->B\nA-->B" = .ok diagram ∧
      Graph.ofDiagram diagram = .ok graph ∧ graph.nodes ≠ [] ∧ (Metrics.standard : Metrics Rat).Admissible ∧
        ∃ scene, Scene.ofGraph graph Metrics.standard = .ok scene ∧ scene.Fits Metrics.standard := by
  have run : ((Diagram.ofSource "graph RL\nsubgraph s\nA-->|again|A\nend\nA-->B\nA-->B").toOption.map fun diagram =>
      (Graph.ofDiagram diagram).toOption.map fun graph => graph.nodes.length) = some (some 2) := by decide +kernel
  cases read : Diagram.ofSource "graph RL\nsubgraph s\nA-->|again|A\nend\nA-->B\nA-->B" with
  | error failure =>
    rw [read] at run
    cases run
  | ok diagram =>
    rw [read] at run
    cases built : Graph.ofDiagram diagram with
    | error error => simp [Except.toOption, built] at run
    | ok graph =>
      have nodes : graph.nodes ≠ [] := by
        intro none
        simp [Except.toOption, built, none] at run
      have fits := fits_ofDiagram built nodes Metrics.admissible_standard
      exact ⟨diagram, graph, rfl, built, nodes, Metrics.admissible_standard, fits⟩

end Scene
end Flowchart
