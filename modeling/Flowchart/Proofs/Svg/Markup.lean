import Flowchart.Proofs.Svg.Characters

/-!
The picture that is written for a scene is a document, and the tree that was built is its only reading. Which elements
and attributes that tree has is fixed by what is drawn; the texts of the scene stand in it as characters only.
-/
namespace Flowchart

namespace Xml.Element

def attributes : Element → List (String × String)
  | mk _ attributes _ _ => attributes

def children : Element → List Element
  | mk _ _ _ children => children

/-- The contents of all text elements, in order. -/
def texts : Element → List String
  | mk name _ text children => (if name = "text" then [text] else []) ++ textsOf children
where
  textsOf : List Element → List String
    | [] => []
    | child :: rest => child.texts ++ textsOf rest

theorem textsOf_eq (children : List Element) : texts.textsOf children = children.flatMap texts := by
  induction children with
  | nil => rfl
  | cons child children ih => rw [texts.textsOf, ih, List.flatMap_cons]

/-- An element without a text is legal if its attributes and its children are. -/
theorem isLegal_node {name : String} {attributes : List (String × String)} {children : List Element}
    (legal : ∀ pair ∈ attributes, Legal pair.2) (each : ∀ child ∈ children, child.IsLegal) :
    (node name attributes children).IsLegal :=
  .mk legal (by decide) (by decide) each

theorem isLegal_empty {name : String} {attributes : List (String × String)}
    (legal : ∀ pair ∈ attributes, Legal pair.2) : (node name attributes []).IsLegal :=
  isLegal_node legal (List.forall_mem_nil _)

end Xml.Element

namespace Svg

open Xml

variable {settings : Settings} {scene : Scene Float} {caption : Caption Float}

/-- The text that is drawn for a caption. -/
def drawnText (settings : Settings) (caption : Caption Float) : String :=
  sanitize settings.security caption.text

/-- The texts of a scene and the name of the font are such as a document may have, and no text that is drawn has a
carriage return. -/
structure Legible (settings : Settings) (scene : Scene Float) : Prop where
  font : Legal settings.fontFamily
  clusters : ∀ cluster ∈ scene.clusters, Legal cluster.id ∧ ∀ title ∈ cluster.title, Legal title
  connectors : ∀ connector ∈ scene.connectors, ∀ label ∈ connector.label, Legal label
  shapes : ∀ shape ∈ scene.shapes, Legal shape.id ∧ Legal shape.label
  drawn : ∀ caption ∈ scene.captions settings.metrics, '\r' ∉ (drawnText settings caption).toList

section frames

def boxNames : List String :=
  ["x", "y", "width", "height"]

def textFrame : Frame :=
  ⟨"text", ["x", "y", "fill", "text-anchor", "dominant-baseline"], []⟩

def outlineFrame : Shape → Frame
  | .circle => ⟨"circle", ["cx", "cy", "r", "fill", "stroke", "stroke-width"], []⟩
  | .rhombus => ⟨"polygon", ["points", "fill", "stroke", "stroke-width"], []⟩
  | .rectangle | .rounded => ⟨"rect", boxNames ++ ["rx", "ry", "fill", "stroke", "stroke-width"], []⟩

def shapeFrame (shape : Shape) : Frame :=
  ⟨"g", ["class", "id"], [outlineFrame shape, textFrame]⟩

def connectorFrame (style : EdgeStyle) (head labelled : Bool) : Frame :=
  ⟨"g", ["class", "id"],
    ⟨"polyline", ["points", "fill", "stroke", "stroke-width"] ++
      (if style = .dashed then ["stroke-dasharray"] else []) ++ (if head then ["marker-end"] else []), []⟩ ::
      if labelled then [⟨"rect", boxNames ++ ["fill"], []⟩, textFrame] else []⟩

def clusterFrame (titled : Bool) : Frame :=
  ⟨"g", ["class", "id"], ⟨"rect", boxNames ++ ["fill", "stroke"], []⟩ :: if titled then [textFrame] else []⟩

/-- The elements of a picture, by which clusters have a title, how the connectors look and which of them are labelled,
and the shapes of the nodes. -/
def pictureFrame (titled : List Bool) (connectors : List (EdgeStyle × Bool × Bool)) (shapes : List Shape) : Frame :=
  ⟨"svg", ["xmlns", "width", "height", "viewBox", "font-family", "font-size"],
    [⟨"defs", [], [⟨"marker", ["id", "viewBox", "refX", "refY", "markerWidth", "markerHeight", "orient"],
        [⟨"path", ["d", "fill"], []⟩]⟩]⟩,
      ⟨"rect", ["class", "width", "height", "fill"], []⟩] ++
    titled.map clusterFrame ++ connectors.map (fun (style, head, labelled) => connectorFrame style head labelled) ++
    shapes.map shapeFrame⟩

theorem isValid_pictureFrame (titled : List Bool) (connectors : List (EdgeStyle × Bool × Bool))
    (shapes : List Shape) : (pictureFrame titled connectors shapes).isValid = true := by
  have cluster (titled : Bool) : (clusterFrame titled).isValid = true := by
    cases titled <;> decide
  have connector (look : EdgeStyle × Bool × Bool) : (connectorFrame look.1 look.2.1 look.2.2).isValid = true := by
    obtain ⟨style, head, labelled⟩ := look
    cases style <;> cases head <;> cases labelled <;> decide
  have shape (shape : Shape) : (shapeFrame shape).isValid = true := by
    cases shape <;> decide
  rw [pictureFrame, Frame.isValid, Frame.areValid_eq, List.all_append, List.all_append, List.all_append, List.all_map,
    List.all_map, List.all_map]
  simp only [Function.comp_def, cluster, connector, shape, List.all_eq_true.2 fun _ _ => rfl]
  decide

end frames

theorem frame_shape (settings : Settings) (shape : ShapeBox Float) :
    (shapeElement settings shape).frame = shapeFrame shape.shape := by
  cases isShape : shape.shape <;> simp only [shapeElement, ShapeBox.outline, isShape] <;> rfl

theorem frame_connector (settings : Settings) (connector : Connector Float) :
    (connectorElement settings connector).frame =
      connectorFrame connector.style connector.head connector.caption?.isSome := by
  rw [connectorElement, connectorFrame]
  cases connector.caption? <;> cases connector.head <;> cases connector.style <;> rfl

theorem frame_cluster (settings : Settings) (cluster : Cluster Float) :
    (clusterElement settings cluster).frame = clusterFrame (cluster.caption? settings.metrics).isSome := by
  rw [clusterElement]
  cases cluster.caption? settings.metrics <;> rfl

theorem frame_document (settings : Settings) (scene : Scene Float) : (document settings scene).frame = pictureFrame
    (scene.clusters.map fun cluster => (cluster.caption? settings.metrics).isSome)
    (scene.connectors.map fun connector => (connector.style, connector.head, connector.caption?.isSome))
    (scene.shapes.map ShapeBox.shape) := by
  rw [document, Element.node, Element.frame, Element.framesOf_eq, pictureFrame]
  simp only [List.map_append, List.map_map, Function.comp_def, frame_cluster, frame_connector, frame_shape]
  rfl

section legal

structure Palette.IsLegal (colors : Palette) : Prop where
  background : Legal colors.background
  nodeFill : Legal colors.nodeFill
  nodeStroke : Legal colors.nodeStroke
  text : Legal colors.text
  edge : Legal colors.edge
  clusterFill : Legal colors.clusterFill
  clusterStroke : Legal colors.clusterStroke
  labelBackground : Legal colors.labelBackground

theorem legal_palette (theme : Theme) : (palette theme).IsLegal := by
  cases theme <;> constructor <;> decide

theorem legal_boxAttributes (box : Box Float) : ∀ pair ∈ boxAttributes box, Legal pair.2 := by
  simp only [boxAttributes, List.forall_mem_cons]
  exact ⟨legal_numeral _, legal_numeral _, legal_numeral _, legal_numeral _, List.forall_mem_nil _⟩

theorem legal_group {kind id : String} (legalKind : Legal kind) (legalId : Legal id) :
    ∀ pair ∈ [("class", kind), ("id", id)], Legal pair.2 := by
  simp only [List.forall_mem_cons]
  exact ⟨legalKind, legalId, List.forall_mem_nil _⟩

theorem isLegal_text (settings : Settings) (legal : Legal caption.text)
    (noReturn : '\r' ∉ (drawnText settings caption).toList) : (textElement settings caption).IsLegal := by
  refine .mk ?_ (legal_sanitize settings.security legal) noReturn (List.forall_mem_nil _)
  simp only [List.forall_mem_cons]
  exact ⟨legal_numeral _, legal_numeral _, (legal_palette _).text, by decide, by decide, List.forall_mem_nil _⟩

theorem isLegal_outline {style : List (String × String)} (legal : ∀ pair ∈ style, Legal pair.2)
    (outline : Outline Float) : (outlineElement style outline).IsLegal := by
  cases outline with
  | circle center radius =>
    apply Element.isLegal_empty
    simp only [List.cons_append, List.nil_append, List.forall_mem_cons]
    exact ⟨legal_numeral _, legal_numeral _, legal_numeral _, legal⟩
  | polygon corners =>
    apply Element.isLegal_empty
    exact List.forall_mem_cons.2 ⟨legal_pointList corners, legal⟩
  | rectangle box radius =>
    apply Element.isLegal_empty
    simp only [List.forall_mem_append, List.forall_mem_cons]
    exact ⟨⟨legal_boxAttributes box, legal_numeral _, legal_numeral _, List.forall_mem_nil _⟩, legal⟩

theorem isLegal_shape (settings : Settings) {shape : ShapeBox Float} (id : Legal shape.id) (label : Legal shape.label)
    (noReturn : '\r' ∉ (drawnText settings shape.caption).toList) :
    (shapeElement settings shape).IsLegal := by
  have kind : Legal ("node " ++ shape.shape.name) := by
    cases shape.shape <;> decide
  apply Element.isLegal_node (legal_group kind (legal_append (by decide) id))
  simp only [List.forall_mem_cons]
  refine ⟨isLegal_outline ?_ shape.outline, isLegal_text settings label noReturn, List.forall_mem_nil _⟩
  simp only [List.forall_mem_cons]
  exact ⟨(legal_palette _).nodeFill, (legal_palette _).nodeStroke, by decide, List.forall_mem_nil _⟩

theorem legal_line (settings : Settings) (connector : Connector Float) : ∀ pair ∈
    [("points", pointList connector.points), ("fill", "none"), ("stroke", (palette settings.theme).edge),
      ("stroke-width", strokeWidth connector.style)] ++
      (if connector.style = .dashed then [("stroke-dasharray", "4 3")] else []) ++
      (if connector.head then [("marker-end", "url(#arrowhead)")] else []), Legal pair.2 := by
  have dashes : ∀ pair ∈ if connector.style = .dashed then [("stroke-dasharray", "4 3")] else [], Legal pair.2 := by
    split <;> decide
  have marker : ∀ pair ∈ if connector.head then [("marker-end", "url(#arrowhead)")] else [], Legal pair.2 := by
    split <;> decide
  have width : Legal (strokeWidth connector.style) := by
    cases connector.style <;> decide
  simp only [List.forall_mem_append, List.forall_mem_cons]
  exact ⟨⟨⟨legal_pointList _, by decide, (legal_palette _).edge, width, List.forall_mem_nil _⟩, dashes⟩, marker⟩

theorem legal_labelBox (settings : Settings) (caption : Caption Float) : ∀ pair ∈
    boxAttributes (caption.background settings.metrics) ++ [("fill", (palette settings.theme).labelBackground)],
    Legal pair.2 := by
  simp only [List.forall_mem_append, List.forall_mem_cons]
  exact ⟨legal_boxAttributes _, (legal_palette _).labelBackground, List.forall_mem_nil _⟩

theorem legal_clusterBox (settings : Settings) (cluster : Cluster Float) : ∀ pair ∈ boxAttributes cluster.box ++
    [("fill", (palette settings.theme).clusterFill), ("stroke", (palette settings.theme).clusterStroke)],
    Legal pair.2 := by
  simp only [List.forall_mem_append, List.forall_mem_cons]
  have colors := legal_palette settings.theme
  exact ⟨legal_boxAttributes _, colors.clusterFill, colors.clusterStroke, List.forall_mem_nil _⟩

theorem isLegal_connector (settings : Settings) {connector : Connector Float}
    (drawn : ∀ caption ∈ connector.caption?,
      Legal caption.text ∧ '\r' ∉ (drawnText settings caption).toList) :
    (connectorElement settings connector).IsLegal := by
  have kind : Legal ("edge " ++ connector.style.name) := by
    cases connector.style <;> decide
  apply Element.isLegal_node (legal_group kind (legal_append (by decide) (legal_toString _)))
  refine List.forall_mem_cons.2 ⟨Element.isLegal_empty (legal_line settings connector), ?_⟩
  cases isCaption : connector.caption? with
  | none => exact List.forall_mem_nil _
  | some caption =>
    obtain ⟨label, noReturn⟩ := drawn caption isCaption
    simp only [Option.map_some, Option.getD_some, edgeLabelElements, List.forall_mem_cons]
    refine ⟨Element.isLegal_empty (legal_labelBox settings caption), ?_, List.forall_mem_nil _⟩
    exact isLegal_text settings label noReturn

theorem isLegal_cluster (settings : Settings) {cluster : Cluster Float} (id : Legal cluster.id)
    (drawn : ∀ caption ∈ cluster.caption? settings.metrics,
      Legal caption.text ∧ '\r' ∉ (drawnText settings caption).toList) :
    (clusterElement settings cluster).IsLegal := by
  apply Element.isLegal_node (legal_group (by decide) (legal_append (by decide) id))
  refine List.forall_mem_cons.2 ⟨Element.isLegal_empty (legal_clusterBox settings cluster), ?_⟩
  cases isCaption : cluster.caption? settings.metrics with
  | none => exact List.forall_mem_nil _
  | some caption =>
    obtain ⟨title, noReturn⟩ := drawn caption isCaption
    simp only [Option.map_some, Option.toList_some, List.forall_mem_cons]
    exact ⟨isLegal_text settings title noReturn, List.forall_mem_nil _⟩

theorem isLegal_definitions (settings : Settings) : (definitions settings).IsLegal := by
  have path : ∀ pair ∈ [("d", "M 0 0 L 10 5 L 0 10 z"), ("fill", (palette settings.theme).edge)], Legal pair.2 := by
    simp only [List.forall_mem_cons]
    exact ⟨by decide, (legal_palette _).edge, List.forall_mem_nil _⟩
  refine Element.isLegal_node (List.forall_mem_nil _) (List.forall_mem_cons.2 ⟨?_, List.forall_mem_nil _⟩)
  refine Element.isLegal_node (by decide) (List.forall_mem_cons.2 ⟨?_, List.forall_mem_nil _⟩)
  exact Element.isLegal_empty path

theorem isLegal_background (settings : Settings) : (background settings).IsLegal := by
  apply Element.isLegal_empty
  simp only [List.forall_mem_cons]
  exact ⟨by decide, by decide, by decide, (legal_palette _).background, List.forall_mem_nil _⟩

theorem label_of_caption? {connector : Connector Float} (shown : connector.caption? = some caption) :
    connector.label = some caption.text := by
  rw [Connector.caption?] at shown
  split at shown
  · rename_i label place isLabel isPlace
    split at shown
    · cases shown
    · cases shown
      exact isLabel
  · cases shown

theorem title_of_caption? {cluster : Cluster Float} {metrics : Metrics Float}
    (shown : cluster.caption? metrics = some caption) : cluster.title = some caption.text := by
  rw [Cluster.caption?] at shown
  split at shown
  · rename_i title isTitle
    split at shown
    · cases shown
    · cases shown
      exact isTitle
  · cases shown

theorem isLegal_document (legible : Legible settings scene) : (document settings scene).IsLegal := by
  obtain ⟨font, clusters, connectors, shapes, drawn⟩ := legible
  simp only [Scene.captions, List.forall_mem_append] at drawn
  obtain ⟨⟨drawnTitles, drawnLabels⟩, drawnShapes⟩ := drawn
  apply Element.isLegal_node
  · have width := legal_numeral scene.width
    have height := legal_numeral scene.height
    simp only [List.forall_mem_cons]
    refine ⟨by decide, width, height, ?_, font, legal_numeral _, List.forall_mem_nil _⟩
    exact legal_append (legal_append (legal_append (by decide) width) (by decide)) height
  · simp only [List.forall_mem_append, List.forall_mem_cons, List.forall_mem_map]
    refine ⟨⟨⟨⟨isLegal_definitions settings, isLegal_background settings, List.forall_mem_nil _⟩, ?_⟩, ?_⟩, ?_⟩
    · intro cluster mem
      refine isLegal_cluster settings (clusters cluster mem).1 fun caption shown => ⟨?_, ?_⟩
      · exact (clusters cluster mem).2 caption.text (title_of_caption? shown)
      · exact drawnTitles caption (List.mem_filterMap.2 ⟨cluster, mem, shown⟩)
    · intro connector mem
      refine isLegal_connector settings fun caption shown => ⟨?_, ?_⟩
      · exact connectors connector mem caption.text (label_of_caption? shown)
      · exact drawnLabels caption (List.mem_filterMap.2 ⟨connector, mem, shown⟩)
    · intro shape mem
      obtain ⟨id, label⟩ := shapes shape mem
      exact isLegal_shape settings id label (drawnShapes shape.caption (List.mem_map_of_mem mem))

end legal

section texts

theorem texts_shape (settings : Settings) (shape : ShapeBox Float) :
    (shapeElement settings shape).texts = [drawnText settings shape.caption] := by
  cases isShape : shape.shape <;> simp only [shapeElement, ShapeBox.outline, isShape] <;> rfl

theorem texts_connector (settings : Settings) (connector : Connector Float) :
    (connectorElement settings connector).texts = (connector.caption?.map (drawnText settings)).toList := by
  rw [connectorElement]
  cases connector.caption? <;> rfl

theorem texts_cluster (settings : Settings) (cluster : Cluster Float) : (clusterElement settings cluster).texts =
    ((cluster.caption? settings.metrics).map (drawnText settings)).toList := by
  rw [clusterElement]
  cases cluster.caption? settings.metrics <;> rfl

theorem texts_document (settings : Settings) (scene : Scene Float) : (document settings scene).texts =
    (scene.captions settings.metrics).map (drawnText settings) := by
  have clusters : (scene.clusters.map (clusterElement settings)).flatMap Element.texts =
      (scene.clusters.filterMap (Cluster.caption? settings.metrics)).map (drawnText settings) := by
    rw [List.flatMap_map, List.map_filterMap, List.filterMap_eq_flatMap_toList]
    simp only [texts_cluster]
  have connectors : (scene.connectors.map (connectorElement settings)).flatMap Element.texts =
      (scene.connectors.filterMap Connector.caption?).map (drawnText settings) := by
    rw [List.flatMap_map, List.map_filterMap, List.filterMap_eq_flatMap_toList]
    simp only [texts_connector]
  have shapes : (scene.shapes.map (shapeElement settings)).flatMap Element.texts =
      (scene.shapes.map ShapeBox.caption).map (drawnText settings) := by
    rw [List.flatMap_map, List.map_map, List.map_eq_flatMap]
    simp only [texts_shape, Function.comp_def]
  rw [document, Element.node, Element.texts, Element.textsOf_eq, Scene.captions, List.flatMap_append,
    List.flatMap_append, List.flatMap_append, clusters, connectors, shapes, List.map_append, List.map_append]
  rfl

end texts

/-- What is read back from a picture is what was built: a tree whose elements are fixed by what is drawn, with a group
for each cluster, each connector and each node in the order of the scene, and whose texts are those of the scene. -/
structure Faithful (settings : Settings) (scene : Scene Float) : Prop where
  reading : ∀ tree, IsDocument (render settings scene) tree ↔ tree = (document settings scene).item
  frame : (document settings scene).frame = pictureFrame
    (scene.clusters.map fun cluster => (cluster.caption? settings.metrics).isSome)
    (scene.connectors.map fun connector => (connector.style, connector.head, connector.caption?.isSome))
    (scene.shapes.map ShapeBox.shape)
  groups : ((document settings scene).children.drop 2).map Element.attributes =
    scene.clusters.map (fun cluster => [("class", "cluster"), ("id", "cluster-" ++ cluster.id)]) ++
      scene.connectors.map (fun connector =>
        [("class", "edge " ++ connector.style.name), ("id", "edge-" ++ toString connector.index)]) ++
      scene.shapes.map (fun shape => [("class", "node " ++ shape.shape.name), ("id", "node-" ++ shape.id)])
  texts : (document settings scene).texts = (scene.captions settings.metrics).map (drawnText settings)

theorem faithful_of_legible (legible : Legible settings scene) : Faithful settings scene := by
  constructor
  · have valid : (document settings scene).frame.isValid = true := by
      rw [frame_document]
      exact isValid_pictureFrame _ _ _
    exact Element.isDocument_iff valid (isLegal_document legible)
  · exact frame_document settings scene
  · rw [document, Element.node, Element.children, List.append_assoc, List.append_assoc, List.cons_append,
      List.cons_append, List.drop_succ_cons, List.drop_succ_cons, List.drop_zero]
    simp only [List.nil_append, List.map_append, List.map_map, List.append_assoc]
    rfl
  · exact texts_document settings scene

/-- Labels that would open, close and comment out elements, and an id and a font that would end their attributes. -/
theorem faithful_of_legible_loose :
    let settings : Settings := { security := .loose, fontFamily := "a'\" onload=\"b" }
    let scene : Scene Float := {
      width := 80.0, height := 40.0
      clusters := [⟨"c", some "<!-- title", ⟨0.0, 0.0, 80.0, 40.0⟩⟩]
      connectors := [⟨0, "d", "d", [⟨1.0, 2.0⟩, ⟨3.0, 4.0⟩], .dashed, true, some "]]></g>", some ⟨1.0, 1.0⟩⟩]
      shapes := [⟨"d\"/>\t\r\n", .circle, "&lt;<![CDATA[<b c='d'>", 0, 0, ⟨1.0, 2.0, 3.0, 4.0⟩⟩] }
    Legible settings scene ∧ Faithful settings scene := by
  intro settings scene
  have legible : Legible settings scene := by
    constructor
    · decide
    · simp only [scene, List.forall_mem_cons]
      decide
    · simp only [scene, List.forall_mem_cons]
      decide
    · simp only [scene, List.forall_mem_cons]
      decide
    · have texts : (scene.captions settings.metrics).map (drawnText settings) =
          ["<!-- title", "]]></g>", "&lt;<![CDATA[<b c='d'>"] := rfl
      have plain : ∀ text ∈ ["<!-- title", "]]></g>", "&lt;<![CDATA[<b c='d'>"], '\r' ∉ text.toList := by decide
      intro caption mem
      apply plain (drawnText settings caption)
      rw [← texts]
      exact List.mem_map_of_mem mem
  exact ⟨legible, faithful_of_legible legible⟩

end Svg
end Flowchart
