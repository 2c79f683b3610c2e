import Flowchart.Proofs.Scene.Fitting
import Flowchart.Svg.Label

/-!
The room that the texts of a scene have. The label of a node stands in a box that was made for it, and that of an edge
on a background that the canvas was made for. The canvas knows nothing of the titles of the frames: one that is too
long for its frame and for what lies beside the frame is cut off.
-/
namespace Flowchart

variable {metrics : Metrics Rat} {graph : Graph} {scene : Scene Rat} {security : Security} {left right : Rat}

namespace Svg

theorem length_dropTags_le (cs : List Char) : (dropTags cs).length ≤ cs.length := by
  fun_induction dropTags cs with
  | case1 => exact Nat.le_refl 0
  | case2 cs rest found ih => exact Nat.le_succ_of_le (ih.trans (Nat.le_of_lt (length_lt_of_behindTag? found)))
  | case3 cs => exact Nat.le_refl _
  | case4 c cs _ ih => exact Nat.succ_le_succ ih

/-- A text is never drawn longer than it was measured. -/
theorem length_sanitize_le (security : Security) (label : String) :
    (sanitize security label).length ≤ label.length := by
  cases security with
  | strict =>
    rw [sanitize, String.length_ofList, ← String.length_toList]
    exact length_dropTags_le label.toList
  | loose => exact Nat.le_refl _

end Svg

namespace Metrics

theorem textWidth_le (admissible : metrics.Admissible) {text longer : String} (length : text.length ≤ longer.length) :
    metrics.textWidth text ≤ metrics.textWidth longer := by
  have size := admissible.fontSize_pos
  have width : 0 ≤ metrics.charWidth := by
    rw [charWidth]
    norm_num
    exact le_of_lt size
  exact mul_le_mul_of_nonneg_right (by exact_mod_cast length) width

/-- The box of a node is as wide as its label with the padding on both sides, whatever its shape. -/
theorem textWidth_le_nodeSize (admissible : metrics.Admissible) (shape : Shape) (label : String) :
    metrics.textWidth label + 2 * metrics.labelPadding ≤ (metrics.nodeSize shape label).1 := by
  have width : 0 < metrics.nodeWidth := by simpa using admissible.nodeWidth
  have wide := le_max_left metrics.nodeWidth (metrics.textWidth label + 2 * metrics.labelPadding)
  have room := le_max_right metrics.nodeWidth (metrics.textWidth label + 2 * metrics.labelPadding)
  simp only [nodeSize, Coordinate.larger_eq_max, Coordinate.two_eq]
  cases shape with
  | circle => exact le_max_right _ _
  | rhombus =>
    norm_num only
    linarith
  | rectangle | rounded => exact room

end Metrics

theorem Placement.width_of_mem {shape : ShapeBox Rat} (mem : shape ∈ boxes graph metrics) :
    shape.box.width = (metrics.nodeSize shape.shape shape.label).1 := by
  obtain ⟨rank, mem⟩ := mem_boxes.1 mem
  obtain ⟨band, isBand, mem⟩ := mem_rowOf.1 mem
  obtain ⟨sized, isSized, order, along, rfl⟩ := mem_placeRow mem
  rw [(band_cases isBand).2] at isSized
  obtain ⟨node, -, rfl⟩ := List.mem_map.1 isSized
  rw [placed]
  split <;> rfl

theorem Scene.width_of_mem {shape : ShapeBox Rat} (laid : Scene.ofGraph graph metrics = .ok scene)
    (mem : shape ∈ scene.shapes) : shape.box.width = (metrics.nodeSize shape.shape shape.label).1 := by
  obtain ⟨dx, dy, shapes⟩ := shapes_of_ofGraph laid
  rw [shapes] at mem
  obtain ⟨id, known, rfl⟩ := List.mem_map.1 mem
  have width := Placement.width_of_mem (Placement.find_mem metrics known).1
  exact width

namespace Caption

variable {caption : Caption Rat} {box : Box Rat}

/-- The estimated width of a caption as it is drawn. -/
def drawnWidth (security : Security) (metrics : Metrics Rat) (caption : Caption Rat) : Rat :=
  metrics.textWidth (Svg.sanitize security caption.text)

/-- A caption that is centred at its place is not cut off on either side. -/
structure Between (security : Security) (metrics : Metrics Rat) (left right : Rat) (caption : Caption Rat) : Prop where
  starts : left ≤ caption.place.x - caption.drawnWidth security metrics / 2
  stops : caption.place.x + caption.drawnWidth security metrics / 2 ≤ right

instance : Decidable (caption.Between security metrics left right) :=
  decidable_of_iff (left ≤ caption.place.x - caption.drawnWidth security metrics / 2 ∧
      caption.place.x + caption.drawnWidth security metrics / 2 ≤ right)
    ⟨fun sides => ⟨sides.1, sides.2⟩, fun between => ⟨between.starts, between.stops⟩⟩

theorem drawnWidth_le (admissible : metrics.Admissible) (security : Security) (caption : Caption Rat) :
    caption.drawnWidth security metrics ≤ metrics.textWidth caption.text :=
  Metrics.textWidth_le admissible (Svg.length_sanitize_le security caption.text)

/-- A caption in the middle of a box may be wider than the box by what lies free on the narrower side. -/
theorem between_iff (centred : caption.place.x = box.center.x) : caption.Between security metrics left right ↔
    caption.drawnWidth security metrics ≤ box.width + 2 * min (box.x - left) (right - box.right) := by
  have sides : caption.drawnWidth security metrics ≤ box.width + 2 * min (box.x - left) (right - box.right) ↔
      caption.drawnWidth security metrics ≤ box.width + 2 * (box.x - left) ∧
        caption.drawnWidth security metrics ≤ box.width + 2 * (right - box.right) := by
    rw [mul_min_of_nonneg _ _ zero_le_two, ← min_add_add_left, le_min_iff]
  rw [sides]
  simp only [Box.center, Box.right, Coordinate.two_eq] at centred ⊢
  constructor
  · rintro ⟨starts, stops⟩
    constructor <;> linarith
  · rintro ⟨starts, stops⟩
    constructor <;> linarith

theorem between_of_le (centred : caption.place.x = box.center.x) {margin : Rat}
    (fits : caption.drawnWidth security metrics + 2 * margin ≤ box.width) :
    caption.Between security metrics (box.x + margin) (box.right - margin) := by
  rw [between_iff centred]
  simp only [sub_add_cancel_left, sub_sub_cancel_left, min_self]
  linarith

theorem Between.mono {outerLeft outerRight : Rat} (between : caption.Between security metrics left right)
    (left_le : outerLeft ≤ left) (right_le : right ≤ outerRight) :
    caption.Between security metrics outerLeft outerRight :=
  ⟨left_le.trans between.starts, between.stops.trans right_le⟩

theorem between_background (admissible : metrics.Admissible) (security : Security) (caption : Caption Rat) :
    caption.Between security metrics ((caption.background metrics).x + 4) ((caption.background metrics).right - 4) := by
  refine between_of_le ?_ ?_
  · simp only [background, Box.center, Coordinate.two_eq]
    ring
  · have width := drawnWidth_le admissible security caption
    simp only [background, Metrics.edgeLabelSize]
    norm_num only
    linarith

end Caption

theorem Cluster.center_of_caption? {cluster : Cluster Rat} {title : Caption Rat}
    (shown : cluster.caption? metrics = some title) : title.place.x = cluster.box.center.x := by
  rw [caption?] at shown
  split at shown
  · split at shown
    · cases shown
    · cases shown
      rfl
  · cases shown

namespace Scene

/-- What a scene leaves free beside a cluster, on the side that has less. -/
def clearance (scene : Scene Rat) (cluster : Cluster Rat) : Rat :=
  min cluster.box.x (scene.width - cluster.box.right)

/-- Which texts of a scene have their room on the canvas: labels always, and titles unless they are wider than their
frames and what is free beside them. -/
structure Accommodates (security : Security) (metrics : Metrics Rat) (scene : Scene Rat) : Prop where
  nodes : ∀ shape ∈ scene.shapes,
    metrics.padding ≤ shape.box.x ∧ shape.box.right ≤ scene.width - metrics.padding ∧
      shape.caption.Between security metrics (shape.box.x + metrics.labelPadding)
        (shape.box.right - metrics.labelPadding)
  edges : ∀ connector ∈ scene.connectors, ∀ label ∈ connector.caption?,
    label.Between security metrics (metrics.padding + 4) (scene.width - metrics.padding - 4)
  clearances : ∀ cluster ∈ scene.clusters, metrics.padding ≤ scene.clearance cluster
  titles : ∀ cluster ∈ scene.clusters, ∀ title ∈ cluster.caption? metrics,
    title.Between security metrics 0 scene.width ↔
      title.drawnWidth security metrics ≤ cluster.box.width + 2 * scene.clearance cluster
  all : (∀ caption ∈ scene.captions metrics, caption.Between security metrics 0 scene.width) ↔
    ∀ cluster ∈ scene.clusters, ∀ title ∈ cluster.caption? metrics,
      title.drawnWidth security metrics ≤ cluster.box.width + 2 * scene.clearance cluster

theorem mem_captions {caption : Caption Rat} : caption ∈ scene.captions metrics ↔
    (∃ cluster ∈ scene.clusters, caption ∈ cluster.caption? metrics) ∨
      (∃ connector ∈ scene.connectors, caption ∈ connector.caption?) ∨
        ∃ shape ∈ scene.shapes, shape.caption = caption := by
  simp only [captions, List.mem_append, List.mem_filterMap, List.mem_map, Option.mem_def, or_assoc]

namespace Fits

variable (fits : scene.Fits metrics)
include fits

/-- What is drawn keeps the padding on both sides. -/
theorem margins {box : Box Rat} (drawn : box ∈ scene.drawn metrics) :
    metrics.padding ≤ box.x ∧ box.right ≤ scene.width - metrics.padding := by
  have within := fits.inside box drawn
  exact ⟨within.left, scene.edge_right ▸ within.right⟩

theorem margins_shape {shape : ShapeBox Rat} (mem : shape ∈ scene.shapes) :
    metrics.padding ≤ shape.box.x ∧ shape.box.right ≤ scene.width - metrics.padding :=
  fits.margins (List.mem_append_left _ (List.mem_append_left _ (List.mem_map_of_mem mem)))

theorem margins_cluster {cluster : Cluster Rat} (mem : cluster ∈ scene.clusters) :
    metrics.padding ≤ cluster.box.x ∧ cluster.box.right ≤ scene.width - metrics.padding :=
  fits.margins (List.mem_append_left _ (List.mem_append_right _ (List.mem_map_of_mem mem)))

theorem margins_label {connector : Connector Rat} (mem : connector ∈ scene.connectors) {label : Caption Rat}
    (shown : label ∈ connector.caption?) : metrics.padding ≤ (label.background metrics).x ∧
      (label.background metrics).right ≤ scene.width - metrics.padding := by
  refine fits.margins (List.mem_append_right _ (List.mem_flatMap.2 ⟨connector, mem, ?_⟩))
  exact List.mem_append_right _ (Option.mem_toList.2 (Option.mem_map_of_mem _ shown))

/-- A scene that fits its canvas has room for its labels if its boxes are as wide as these ask for. -/
theorem accommodates (admissible : metrics.Admissible)
    (sized : ∀ shape ∈ scene.shapes, shape.box.width = (metrics.nodeSize shape.shape shape.label).1)
    (security : Security) : scene.Accommodates security metrics := by
  have padding := admissible.padding_nonneg
  have labelPadding : 0 ≤ metrics.labelPadding := by simpa using admissible.labelPadding
  have nodes (shape : ShapeBox Rat) (mem : shape ∈ scene.shapes) : shape.caption.Between security metrics
      (shape.box.x + metrics.labelPadding) (shape.box.right - metrics.labelPadding) := by
    refine Caption.between_of_le rfl ?_
    have drawn : shape.caption.drawnWidth security metrics ≤ metrics.textWidth shape.label :=
      Caption.drawnWidth_le admissible security shape.caption
    have room := Metrics.textWidth_le_nodeSize admissible shape.shape shape.label
    rw [sized shape mem]
    linarith
  have edges (connector : Connector Rat) (mem : connector ∈ scene.connectors) (label : Caption Rat)
      (shown : label ∈ connector.caption?) :
      label.Between security metrics (metrics.padding + 4) (scene.width - metrics.padding - 4) := by
    have ⟨starts, stops⟩ := fits.margins_label mem shown
    exact (label.between_background admissible security).mono (by linarith) (by linarith)
  have titles (cluster : Cluster Rat) (title : Caption Rat) (shown : title ∈ cluster.caption? metrics) :
      title.Between security metrics 0 scene.width ↔
        title.drawnWidth security metrics ≤ cluster.box.width + 2 * scene.clearance cluster := by
    rw [Caption.between_iff (Cluster.center_of_caption? shown), sub_zero, clearance]
  refine ⟨?nodes, edges, ?clearances, fun cluster _ => titles cluster, ?all⟩
  case nodes =>
    intro shape mem
    have ⟨starts, stops⟩ := fits.margins_shape mem
    exact ⟨starts, stops, nodes shape mem⟩
  case clearances =>
    intro cluster mem
    have ⟨starts, stops⟩ := fits.margins_cluster mem
    exact le_min starts (by linarith)
  case all =>
    constructor
    · intro whole cluster mem title shown
      exact (titles cluster title shown).1 (whole title (mem_captions.2 (.inl ⟨cluster, mem, shown⟩)))
    · intro narrow caption mem
      rcases mem_captions.1 mem with ⟨cluster, isCluster, shown⟩ | onEdge | ⟨shape, isShape, rfl⟩
      · exact (titles cluster caption shown).2 (narrow cluster isCluster caption shown)
      · obtain ⟨connector, isConnector, shown⟩ := onEdge
        exact (edges connector isConnector caption shown).mono (by linarith) (by linarith)
      · have ⟨starts, stops⟩ := fits.margins_shape isShape
        exact (nodes shape isShape).mono (by linarith) (by linarith)

end Fits

/-- The texts of a diagram all have their room on the canvas, but for titles that are too long for their frames. -/
theorem accommodates_ofDiagram {diagram : Diagram} (described : Graph.ofDiagram diagram = .ok graph)
    (some : graph.nodes ≠ []) (admissible : metrics.Admissible) (security : Security) :
    ∃ scene, Scene.ofGraph graph metrics = .ok scene ∧ scene.Accommodates security metrics := by
  have wellFormed := Graph.wellFormed_ofDiagram described
  obtain ⟨scene, laid⟩ := ofGraph_ok wellFormed (Graph.grouped_ofDiagram described) some metrics
  have fits := fits_of_ofGraph wellFormed.1 some admissible laid
  exact ⟨scene, laid, fits.accommodates admissible (fun shape mem => width_of_mem laid mem) security⟩

end Scene

/-- A circle and a rectangle, joined by an edge with a label, in a block with a given title. -/
def Diagram.titled (title : String) : Diagram :=
  ⟨.TD, default, [.subgraph "s" (some title)
    [.chain [⟨"A", some .circle, some "round", default⟩, ⟨"B", none, none, default⟩]
      [⟨.solid, true, some "a label", default⟩] default] default]⟩

def Graph.titled (title : String) : Graph :=
  ⟨.TD, [⟨"A", "round", .circle⟩, ⟨"B", "B", .rectangle⟩], [⟨"A", "B", some "a label", .solid, true⟩],
    [⟨"s", some title, ["A", "B"], []⟩]⟩

theorem Graph.ofDiagram_titled (title : String) : ofDiagram (.titled title) = .ok (titled title) :=
  rfl

namespace Scene

theorem accommodates_ofDiagram_titled : Graph.ofDiagram (.titled "<b>Start</b>") = .ok (.titled "<b>Start</b>") ∧
    (Graph.titled "<b>Start</b>").nodes ≠ [] ∧ (Metrics.standard : Metrics Rat).Admissible ∧
      ∃ scene, Scene.ofGraph (.titled "<b>Start</b>") (Metrics.standard : Metrics Rat) = .ok scene ∧
        scene.Accommodates .strict Metrics.standard := by
  have built := Graph.ofDiagram_titled "<b>Start</b>"
  have some : (Graph.titled "<b>Start</b>").nodes ≠ [] := List.cons_ne_nil _ _
  exact ⟨built, some, Metrics.admissible_standard,
    accommodates_ofDiagram built some Metrics.admissible_standard .strict⟩

/-- A title that is wider than the canvas, which is sized for the nodes below it. -/
def longTitle : String :=
  "Everything that the service does on startup"

theorem not_between_titled : Graph.ofDiagram (.titled longTitle) = .ok (.titled longTitle) ∧
    (Graph.titled longTitle).nodes ≠ [] ∧ (Metrics.standard : Metrics Rat).Admissible ∧
      ∃ scene, Scene.ofGraph (.titled longTitle) (Metrics.standard : Metrics Rat) = .ok scene ∧
        ∃ caption ∈ scene.captions Metrics.standard, ¬caption.Between .strict Metrics.standard 0 scene.width := by
  have run : (Scene.ofGraph (.titled longTitle) (Metrics.standard : Metrics Rat)).toOption.any fun scene =>
      ∃ caption ∈ scene.captions Metrics.standard, ¬caption.Between .strict Metrics.standard 0 scene.width := by
    decide +kernel
  refine ⟨Graph.ofDiagram_titled longTitle, List.cons_ne_nil _ _, Metrics.admissible_standard, ?_⟩
  cases laid : Scene.ofGraph (.titled longTitle) (Metrics.standard : Metrics Rat) with
  | error error =>
    rw [laid] at run
    cases run
  | ok scene =>
    rw [laid] at run
    exact ⟨scene, rfl, of_decide_eq_true run⟩

end Scene
end Flowchart
