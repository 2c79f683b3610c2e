import Flowchart.Proofs.Graph.Soundness
import Flowchart.Proofs.Scene.Completeness
import Flowchart.Proofs.Scene.Relabelling
import Flowchart.Svg

/-!
What strict documents conceal. Of a label or a title, a document in strict mode tells how long it is and what stands
outside its tags. If the texts of a graph are replaced by others that agree in both, the document stays the same: what
the tags say is nowhere to be found in it, be it in a text, a size or a place.
-/
namespace Flowchart

namespace Svg

/-- Texts of the same length that are the same once their tags are removed. -/
structure SameOutsideTags (text other : String) : Prop where
  length : other.length = text.length
  outside : sanitize .strict other = sanitize .strict text

theorem keepsLength_sameOutsideTags : KeepsLength SameOutsideTags where
  refl _ := ⟨rfl, rfl⟩
  length _ _ same := same.length

section elements

variable {settings : Settings} (strict : settings.security = .strict)
include strict

theorem textElement_eq {caption image : Caption Float} (relabels : caption.Relabels SameOutsideTags image) :
    textElement settings image = textElement settings caption := by
  obtain ⟨same⟩ := relabels
  rw [textElement, textElement, strict, same.outside]

theorem shapeElement_eq {shape image : ShapeBox Float} (relabels : shape.Relabels SameOutsideTags image) :
    shapeElement settings image = shapeElement settings shape := by
  have label := textElement_eq strict relabels.caption
  obtain ⟨_⟩ := relabels
  rw [shapeElement, shapeElement, label]
  rfl

theorem edgeLabelElements_eq {caption image : Caption Float} (relabels : caption.Relabels SameOutsideTags image) :
    edgeLabelElements settings image = edgeLabelElements settings caption := by
  have label := textElement_eq strict relabels
  obtain ⟨same⟩ := relabels
  rw [edgeLabelElements, edgeLabelElements, label, Caption.background, Caption.background,
    Metrics.edgeLabelSize_congr same.length]

theorem connectorElement_eq {connector image : Connector Float} (relabels : connector.Relabels SameOutsideTags image) :
    connectorElement settings image = connectorElement settings connector := by
  have label : image.caption?.map (edgeLabelElements settings) =
      connector.caption?.map (edgeLabelElements settings) :=
    map_eq_of_rel (relabels.caption? keepsLength_sameOutsideTags) fun _ _ same => edgeLabelElements_eq strict same
  obtain ⟨_⟩ := relabels
  rw [connectorElement, connectorElement, label]

theorem clusterElement_eq {cluster image : Cluster Float} (relabels : cluster.Relabels SameOutsideTags image) :
    clusterElement settings image = clusterElement settings cluster := by
  have title : (image.caption? settings.metrics).map (textElement settings) =
      (cluster.caption? settings.metrics).map (textElement settings) :=
    map_eq_of_rel (relabels.caption? keepsLength_sameOutsideTags) fun _ _ same => textElement_eq strict same
  obtain ⟨_⟩ := relabels
  rw [clusterElement, clusterElement, title]

theorem document_eq {scene image : Scene Float} (relabels : scene.Relabels SameOutsideTags image) :
    document settings image = document settings scene := by
  have clusters : image.clusters.map (clusterElement settings) = scene.clusters.map (clusterElement settings) :=
    map_eq_of_forall₂ relabels.clusters fun _ _ same => clusterElement_eq strict same
  have connectors : image.connectors.map (connectorElement settings) =
      scene.connectors.map (connectorElement settings) :=
    map_eq_of_forall₂ relabels.connectors fun _ _ same => connectorElement_eq strict same
  have shapes : image.shapes.map (shapeElement settings) = scene.shapes.map (shapeElement settings) :=
    map_eq_of_forall₂ relabels.shapes fun _ _ same => shapeElement_eq strict same
  rw [document, document, relabels.width, relabels.height, clusters, connectors, shapes]

/-- In strict mode, graphs whose texts differ within tags only, at the same lengths, are drawn as the same document, or
neither can be laid out. -/
theorem render_conceals {graph other : Graph} (relabels : graph.Relabels SameOutsideTags other) :
    (Scene.ofGraph other settings.metrics).map (render settings) =
      (Scene.ofGraph graph settings.metrics).map (render settings) := by
  have agrees := Scene.relabels_ofGraph keepsLength_sameOutsideTags relabels settings.metrics
  exact agrees.map_eq fun scene image same => congrArg Xml.Element.render (document_eq strict same)

end elements

theorem sameOutsideTags_tagged (text : String) : SameOutsideTags ("<b>" ++ text) ("<i>" ++ text) := by
  have length : "<i>".length = "<b>".length := by decide
  constructor
  · rw [String.length_append, String.length_append, length]
  · simp [sanitize, String.toList_append, dropTags, behindTag?]

end Svg

/-- A diagram with a tag in front of each of its texts. -/
def Diagram.tagged (tag : String) : Diagram :=
  ⟨.TD, default, [.subgraph "s" (some (tag ++ "Group"))
    [.chain [⟨"A", some .circle, some (tag ++ "Start"), default⟩, ⟨"B", none, none, default⟩]
      [⟨.solid, true, some (tag ++ "go"), default⟩] default] default]⟩

def Graph.tagged (tag : String) : Graph :=
  ⟨.TD, [⟨"A", tag ++ "Start", .circle⟩, ⟨"B", "B", .rectangle⟩],
    [⟨"A", "B", some (tag ++ "go"), .solid, true⟩], [⟨"s", some (tag ++ "Group"), ["A", "B"], []⟩]⟩

theorem Graph.ofDiagram_tagged (tag : String) : ofDiagram (.tagged tag) = .ok (tagged tag) :=
  rfl

namespace Svg

theorem relabels_tagged : (Graph.tagged "<b>").Relabels SameOutsideTags (.tagged "<i>") where
  direction := rfl
  nodes := .cons (.intro (sameOutsideTags_tagged _)) (.cons (.intro ⟨rfl, rfl⟩) .nil)
  edges := .cons (.intro (.some (sameOutsideTags_tagged _))) .nil
  subgraphs := .cons (.intro (.some (sameOutsideTags_tagged _))) .nil

theorem render_conceals_tagged : Settings.standard.security = .strict ∧
    Graph.ofDiagram (.tagged "<b>") = .ok (.tagged "<b>") ∧ Graph.ofDiagram (.tagged "<i>") = .ok (.tagged "<i>") ∧
    (Graph.tagged "<b>").Relabels SameOutsideTags (.tagged "<i>") ∧ Graph.tagged "<b>" ≠ .tagged "<i>" ∧
      ∃ scene image, Scene.ofGraph (.tagged "<b>") Settings.standard.metrics = .ok scene ∧
        Scene.ofGraph (.tagged "<i>") Settings.standard.metrics = .ok image ∧
          render Settings.standard image = render Settings.standard scene := by
  have laid (tag : String) : ∃ scene, Scene.ofGraph (.tagged tag) Settings.standard.metrics = .ok scene := by
    have built := Graph.ofDiagram_tagged tag
    exact Scene.ofGraph_ok (Graph.wellFormed_ofDiagram built) (Graph.grouped_ofDiagram built) (List.cons_ne_nil _ _) _
  obtain ⟨scene, isScene⟩ := laid "<b>"
  obtain ⟨image, isImage⟩ := laid "<i>"
  have strict : Settings.standard.security = .strict := rfl
  have same := render_conceals strict relabels_tagged
  rw [isScene, isImage] at same
  exact ⟨strict, Graph.ofDiagram_tagged _, Graph.ofDiagram_tagged _, relabels_tagged, by decide, scene, image, isScene,
    isImage, Except.ok.inj same⟩

end Svg
end Flowchart
