import Flowchart.Proofs.Graph.Texts
import Flowchart.Proofs.Render
import Flowchart.Proofs.Scene.Texts
import Flowchart.Proofs.Svg.Markup

/-!
Which pictures are legal. What a document may not have is neither refused nor replaced on its way from the source to the
picture: such characters of a label that is drawn, or of the name of the font, stand in the picture as they are, and the
picture has no others.
-/
namespace Flowchart

namespace Xml

variable {c : Char} {cs : List Char} {text : String}

/-- The characters of a text that no document may have, in order. -/
def illegal (cs : List Char) : List Char :=
  cs.filter fun c => !isLegal c

theorem isLegal_iff : isLegal c = true ↔
    c = '\t' ∨ c = '\n' ∨ c = '\r' ∨ 0x20 ≤ c.toNat ∧ c.toNat ≠ 0xFFFE ∧ c.toNat ≠ 0xFFFF := by
  have eq_iff (d : Char) : c = d ↔ c.toNat = d.toNat := Char.toNat_inj.symm
  have valid : c.toNat < 0xD800 ∨ 0xDFFF < c.toNat ∧ c.toNat < 0x110000 := c.valid
  have tab : '\t'.toNat = 0x9 := rfl
  have feed : '\n'.toNat = 0xA := rfl
  have return_ : '\r'.toNat = 0xD := rfl
  simp only [isLegal, isAmong, List.any_cons, List.any_nil, Bool.or_eq_true, Bool.and_eq_true, decide_eq_true_eq,
    Bool.false_eq_true, or_false, eq_iff]
  omega

theorem illegal_eq_nil : illegal cs = [] ↔ cs.all isLegal = true := by
  simp [illegal]

theorem illegal_append (cs ds : List Char) : illegal (cs ++ ds) = illegal cs ++ illegal ds :=
  List.filter_append ..

theorem illegal_cons_of_isLegal (legal : isLegal c = true) (cs : List Char) : illegal (c :: cs) = illegal cs := by
  simp [illegal, legal]

theorem illegal_flatMap {f : Char → List Char} (same : ∀ c, illegal (f c) = illegal [c]) (cs : List Char) :
    illegal (cs.flatMap f) = illegal cs := by
  induction cs with
  | nil => rfl
  | cons c cs ih => rw [List.flatMap_cons, illegal_append, same, ih, ← illegal_append, List.singleton_append]

/-- No character is written otherwise because a document may not have it. -/
theorem illegal_textChar (c : Char) : illegal (textChar c) = illegal [c] := by
  unfold textChar
  split <;> first | decide | rfl

theorem illegal_attributeChar (c : Char) : illegal (attributeChar c) = illegal [c] := by
  unfold attributeChar
  split <;> first | decide | exact illegal_textChar _

theorem isLegal_of_isNameChar (isName : isNameChar c = true) : isLegal c = true := by
  simp only [isNameChar, isNameStart, isAmong, List.any_cons, List.any_nil, Bool.or_eq_true, Bool.and_eq_true,
    decide_eq_true_eq, Bool.false_eq_true, or_false] at isName
  refine isLegal_iff.2 (.inr (.inr (.inr ?_)))
  omega

theorem legal_of_isName {name : String} (isName : isName name.toList = true) : Legal name := by
  rw [Legal]
  cases chars : name.toList with
  | nil => rfl
  | cons c cs =>
    rw [chars, Xml.isName, Bool.and_eq_true] at isName
    rw [List.all_eq_true]
    intro d mem
    have isNameChar : isNameChar d = true := by
      rcases List.mem_cons.1 mem with rfl | mem
      · rw [Xml.isNameChar, isName.1, Bool.true_or]
      · exact List.all_eq_true.1 isName.2 d mem
    exact isLegal_of_isNameChar isNameChar

theorem illegal_attributeChars {attributes : List (String × String)}
    (names : ∀ pair ∈ attributes, isName pair.1.toList = true) :
    illegal (attributes.flatMap attributeChars) = attributes.flatMap fun pair => illegal pair.2.toList := by
  induction attributes with
  | nil => rfl
  | cons pair attributes ih =>
    obtain ⟨isName, names⟩ := List.forall_mem_cons.1 names
    have name : illegal pair.1.toList = [] := illegal_eq_nil.2 (legal_of_isName isName)
    have value := illegal_flatMap illegal_attributeChar pair.2.toList
    rw [List.flatMap_cons, List.flatMap_cons, illegal_append, ih names]
    simp only [attributeChars, List.cons_append, illegal_append, illegal_cons_of_isLegal (c := ' ') (by decide),
      illegal_cons_of_isLegal (c := '=') (by decide), illegal_cons_of_isLegal (c := '"') (by decide), name, value]
    simp [illegal]

namespace Element

theorem illegal_charsOfList (children : List Element) :
    illegal (chars.charsOfList children) = children.flatMap fun child => illegal child.chars := by
  induction children with
  | nil => rfl
  | cons child children ih => rw [chars.charsOfList, illegal_append, ih, List.flatMap_cons]

/-- What is illegal about an element stands in its values, in its text and in its children. -/
theorem illegal_chars {name text : String} {attributes : List (String × String)} {children : List Element}
    (valid : (mk name attributes text children).frame.isValid = true) :
    illegal (mk name attributes text children).chars = (attributes.flatMap fun pair => illegal pair.2.toList) ++
      illegal text.toList ++ children.flatMap fun child => illegal child.chars := by
  obtain ⟨isName, names, -⟩ := isValid_iff.1 valid
  have opening : illegal ('<' :: name.toList ++ attributes.flatMap attributeChars) =
      attributes.flatMap fun pair => illegal pair.2.toList := by
    rw [illegal_append, illegal_cons_of_isLegal (by decide), illegal_eq_nil.2 (legal_of_isName isName),
      illegal_attributeChars names, List.nil_append]
  have closing : illegal ('<' :: '/' :: name.toList ++ ['>']) = [] := by
    rw [illegal_append, illegal_cons_of_isLegal (by decide), illegal_cons_of_isLegal (by decide),
      illegal_eq_nil.2 (legal_of_isName isName)]
    rfl
  rw [chars]
  split
  · rename_i empty
    obtain ⟨rfl, none⟩ := by simpa using empty
    subst none
    rw [illegal_append, opening, show illegal [' ', '/', '>'] = [] by decide]
    simp [illegal]
  · have split : '<' :: name.toList ++ attributes.flatMap attributeChars ++ '>' :: text.toList.flatMap textChar ++
        chars.charsOfList children ++ '<' :: '/' :: name.toList ++ ['>'] =
          ('<' :: name.toList ++ attributes.flatMap attributeChars) ++ '>' :: text.toList.flatMap textChar ++
            chars.charsOfList children ++ ('<' :: '/' :: name.toList ++ ['>']) := by simp
    rw [split, illegal_append, illegal_append, illegal_append, opening, closing,
      illegal_cons_of_isLegal (by decide), illegal_flatMap illegal_textChar, illegal_charsOfList, List.append_nil]

theorem illegal_values {attributes : List (String × String)} (legal : ∀ pair ∈ attributes, Legal pair.2) :
    (attributes.flatMap fun pair => illegal pair.2.toList) = [] :=
  List.flatMap_eq_nil_iff.2 fun pair mem => illegal_eq_nil.2 (legal pair mem)

theorem illegal_node {name : String} {attributes : List (String × String)} {children : List Element}
    (valid : (node name attributes children).frame.isValid = true) (legal : ∀ pair ∈ attributes, Legal pair.2) :
    illegal (node name attributes children).chars = children.flatMap fun child => illegal child.chars := by
  rw [node, illegal_chars valid, illegal_values legal]
  rfl

theorem illegal_of_isLegal {element : Element} (valid : element.frame.isValid = true) (legal : element.IsLegal) :
    illegal element.chars = [] := by
  induction legal with
  | @mk name attributes text children legal isLegal _ _ ih =>
    have inside := (isValid_iff.1 valid).2.2.2
    rw [illegal_chars valid, illegal_values legal, illegal_eq_nil.2 isLegal]
    exact List.flatMap_eq_nil_iff.2 fun child mem => ih child mem (inside child mem)

end Element
end Xml

namespace Svg

open Xml

variable {settings : Settings} {scene : Scene Float}

theorem illegal_text (settings : Settings) (caption : Caption Float) :
    illegal (textElement settings caption).chars = illegal (drawnText settings caption).toList := by
  have valid : (textElement settings caption).frame.isValid = true := show textFrame.isValid = true by decide
  have legal : ∀ pair ∈ [("x", numeral caption.place.x), ("y", numeral caption.place.y),
      ("fill", (palette settings.theme).text), ("text-anchor", "middle"), ("dominant-baseline", "central")],
      Legal pair.2 := by
    simp only [List.forall_mem_cons]
    exact ⟨legal_numeral _, legal_numeral _, (legal_palette _).text, by decide, by decide, List.forall_mem_nil _⟩
  rw [textElement, Element.leaf] at valid ⊢
  rw [Element.illegal_chars valid, Element.illegal_values legal]
  exact List.append_nil _

theorem illegal_shape (settings : Settings) {shape : ShapeBox Float} (id : Legal shape.id) :
    illegal (shapeElement settings shape).chars = illegal (drawnText settings shape.caption).toList := by
  have kind : Legal ("node " ++ shape.shape.name) := by
    cases shape.shape <;> decide
  have valid : (shapeElement settings shape).frame.isValid = true := by
    rw [frame_shape]
    cases shape.shape <;> decide
  have inside := (Element.isValid_iff.1 valid).2.2.2
  have colors : ∀ pair ∈ [("fill", (palette settings.theme).nodeFill), ("stroke", (palette settings.theme).nodeStroke),
      ("stroke-width", "1.5")], Legal pair.2 := by
    simp only [List.forall_mem_cons]
    exact ⟨(legal_palette _).nodeFill, (legal_palette _).nodeStroke, by decide, List.forall_mem_nil _⟩
  have outline := Element.illegal_of_isLegal (inside _ List.mem_cons_self) (isLegal_outline colors shape.outline)
  rw [shapeElement] at valid ⊢
  rw [Element.illegal_node valid (legal_group kind (legal_append (by decide) id))]
  simp only [List.flatMap_cons, List.flatMap_nil, outline, illegal_text, List.nil_append, List.append_nil]

/-- What is illegal about the text of a caption, if there is one. -/
def illegalCaption (settings : Settings) (caption : Caption Float) : List Char :=
  illegal (drawnText settings caption).toList

theorem illegal_connector (settings : Settings) (connector : Connector Float) :
    illegal (connectorElement settings connector).chars =
      connector.caption?.toList.flatMap (illegalCaption settings) := by
  have kind : Legal ("edge " ++ connector.style.name) := by
    cases connector.style <;> decide
  have valid : (connectorElement settings connector).frame.isValid = true := by
    rw [frame_connector]
    cases connector.style <;> cases connector.head <;> cases connector.caption?.isSome <;> decide
  have inside := (Element.isValid_iff.1 valid).2.2.2
  have line := Element.illegal_of_isLegal (inside _ List.mem_cons_self)
    (Element.isLegal_empty (legal_line settings connector))
  rw [connectorElement] at valid ⊢
  rw [Element.illegal_node valid (legal_group kind (legal_append (by decide) (legal_toString _))), List.flatMap_cons,
    line, List.nil_append]
  cases isCaption : connector.caption? with
  | none => rfl
  | some caption =>
    rw [isCaption] at inside
    have isBox := inside _ (List.mem_cons_of_mem _ List.mem_cons_self)
    have box := Element.illegal_of_isLegal isBox (Element.isLegal_empty (legal_labelBox settings caption))
    simp only [Option.map_some, Option.getD_some, edgeLabelElements, Option.toList_some, List.flatMap_cons,
      List.flatMap_nil, box, illegal_text, List.nil_append, illegalCaption]

theorem illegal_cluster (settings : Settings) {cluster : Cluster Float} (id : Legal cluster.id) :
    illegal (clusterElement settings cluster).chars =
      (cluster.caption? settings.metrics).toList.flatMap (illegalCaption settings) := by
  have valid : (clusterElement settings cluster).frame.isValid = true := by
    rw [frame_cluster]
    cases (cluster.caption? settings.metrics).isSome <;> decide
  have inside := (Element.isValid_iff.1 valid).2.2.2
  have box := Element.illegal_of_isLegal (inside _ List.mem_cons_self)
    (Element.isLegal_empty (legal_clusterBox settings cluster))
  rw [clusterElement] at valid ⊢
  rw [Element.illegal_node valid (legal_group (by decide) (legal_append (by decide) id)), List.flatMap_cons, box,
    List.nil_append]
  cases cluster.caption? settings.metrics with
  | none => rfl
  | some caption => exact congrArg (· ++ []) (illegal_text settings caption)

theorem illegal_document (clusters : ∀ cluster ∈ scene.clusters, Legal cluster.id)
    (shapes : ∀ shape ∈ scene.shapes, Legal shape.id) : illegal (render settings scene).toList =
      illegal settings.fontFamily.toList ++ (scene.captions settings.metrics).flatMap (illegalCaption settings) := by
  have valid : (document settings scene).frame.isValid = true := by
    rw [frame_document]
    exact isValid_pictureFrame _ _ _
  have inside := (Element.isValid_iff.1 valid).2.2.2
  have width := legal_numeral scene.width
  have height := legal_numeral scene.height
  have values : ([("xmlns", "http://www.w3.org/2000/svg"), ("width", numeral scene.width),
      ("height", numeral scene.height), ("viewBox", "0 0 " ++ numeral scene.width ++ " " ++ numeral scene.height),
      ("font-family", settings.fontFamily), ("font-size", numeral settings.metrics.fontSize)].flatMap
        fun pair => illegal pair.2.toList) = illegal settings.fontFamily.toList := by
    have view : Legal ("0 0 " ++ numeral scene.width ++ " " ++ numeral scene.height) :=
      legal_append (legal_append (legal_append (by decide) width) (by decide)) height
    have size := legal_numeral settings.metrics.fontSize
    simp only [List.flatMap_cons, List.flatMap_nil, illegal_eq_nil.2 width, illegal_eq_nil.2 height,
      illegal_eq_nil.2 view, illegal_eq_nil.2 size, List.nil_append, List.append_nil]
    rfl
  have definitions := Element.illegal_of_isLegal (inside _ List.mem_cons_self) (isLegal_definitions settings)
  have background := Element.illegal_of_isLegal (inside _ (List.mem_cons_of_mem _ List.mem_cons_self))
    (isLegal_background settings)
  have titles : (scene.clusters.map (clusterElement settings)).flatMap (fun child => illegal child.chars) =
      (scene.clusters.filterMap (Cluster.caption? settings.metrics)).flatMap (illegalCaption settings) := by
    rw [List.flatMap_map, List.filterMap_eq_flatMap_toList, List.flatMap_assoc]
    exact List.flatMap_congr fun cluster mem => illegal_cluster settings (clusters cluster mem)
  have labels : (scene.connectors.map (connectorElement settings)).flatMap (fun child => illegal child.chars) =
      (scene.connectors.filterMap Connector.caption?).flatMap (illegalCaption settings) := by
    rw [List.flatMap_map, List.filterMap_eq_flatMap_toList, List.flatMap_assoc]
    exact List.flatMap_congr fun connector _ => illegal_connector settings connector
  have nodes : (scene.shapes.map (shapeElement settings)).flatMap (fun child => illegal child.chars) =
      (scene.shapes.map ShapeBox.caption).flatMap (illegalCaption settings) := by
    rw [List.flatMap_map, List.flatMap_map]
    exact List.flatMap_congr fun shape mem => illegal_shape settings (shapes shape mem)
  rw [render, Element.render, String.toList_ofList]
  rw [document, Element.node] at valid ⊢
  rw [Element.illegal_chars valid, values]
  simp only [List.flatMap_append, List.flatMap_cons, List.flatMap_nil, definitions, background, titles, labels, nodes,
    Scene.captions, List.nil_append, List.append_assoc]
  rfl

/-- What a picture has of characters that no document may have: those of the name of the font and of the texts that are
drawn, in order and as they are. Those texts are the titles of the clusters and all labels of edges and nodes, and they
have nothing that the source does not have. -/
structure Unfiltered (source : String) (settings : Settings) (graph : Graph) (scene : Scene Float) (svg : String) :
    Prop where
  texts : (scene.captions settings.metrics).map Caption.text =
    (scene.clusters.filterMap (Cluster.caption? settings.metrics)).map Caption.text ++
      graph.edges.filterMap (fun edge => edge.label.filter (· ≠ "")) ++ graph.nodes.map Node.label
  subset : ∀ caption ∈ scene.captions settings.metrics, caption.text.toList ⊆ source.toList
  illegal : illegal svg.toList = illegal settings.fontFamily.toList ++
    (scene.captions settings.metrics).flatMap fun caption => illegal (drawnText settings caption).toList
  legal : Legal svg ↔ Legal settings.fontFamily ∧
    ∀ caption ∈ scene.captions settings.metrics, Legal (drawnText settings caption)
  safe : Legal settings.fontFamily → Legal source → Legal svg

end Svg

namespace Rendering

variable {source : String} {settings : Settings} {graph : Graph}

theorem supplied_of_graphOf (built : graphOf source = .ok graph) :
    graph.Supplied IsWord fun text => text.toList ⊆ source.toList := by
  obtain ⟨diagram, read, described⟩ := diagram_of_graphOf built
  exact Graph.supplied_ofDiagram described (Diagram.supplied_of_ofSource read)

/-- What is drawn for a graph that has a node. -/
theorem draw_of_graphOf (built : graphOf source = .ok graph) (nodes : graph.nodes ≠ []) (settings : Settings) :
    ∃ scene, Scene.ofGraph graph settings.metrics = .ok scene ∧
      draw source settings Renderer.svg = { source, graph, scene, svg := Svg.render settings scene } := by
  obtain ⟨scene, laidOut⟩ := scene_of_graphOf built nodes settings
  have result : ofSource source settings = { source, graph, scene } := by simp [ofSource, built, laidOut]
  exact ⟨scene, laidOut, by simp [draw, result, Renderer.svg]⟩

end Rendering

namespace Svg

open Xml
open Rendering (graphOf)

variable {source : String} {settings : Settings} {graph : Graph} {scene : Scene Float} {isId isText : String → Prop}

theorem supplied_ids (supplied : graph.Supplied isId isText) (nodup : graph.ids.Nodup)
    (laidOut : Scene.ofGraph graph settings.metrics = .ok scene) :
    (∀ cluster ∈ scene.clusters, isId cluster.id) ∧ ∀ shape ∈ scene.shapes, isId shape.id := by
  constructor
  · intro cluster mem
    obtain ⟨⟨subgraph, isSubgraph, same⟩, -⟩ := Scene.cluster_of_ofGraph laidOut mem
    exact same ▸ (supplied.subgraphs subgraph isSubgraph).1
  · intro shape mem
    have isNode : shape.node ∈ graph.nodes := Scene.nodes_of_ofGraph nodup laidOut ▸ List.mem_map_of_mem mem
    exact (supplied.nodes shape.node isNode).1

theorem supplied_captions (supplied : graph.Supplied isId isText) (nodup : graph.ids.Nodup)
    (laidOut : Scene.ofGraph graph settings.metrics = .ok scene) :
    ∀ caption ∈ scene.captions settings.metrics, isText caption.text := by
  intro caption mem
  have shown : caption.text ∈ (scene.captions settings.metrics).map Caption.text := List.mem_map_of_mem mem
  rw [Scene.texts_of_ofGraph nodup laidOut, List.mem_append, List.mem_append] at shown
  rcases shown with (isTitle | isLabel) | isLabel
  · obtain ⟨title, isTitle, same⟩ := List.mem_map.1 isTitle
    obtain ⟨cluster, isCluster, shown⟩ := List.mem_filterMap.1 isTitle
    obtain ⟨-, subgraph, isSubgraph, titled⟩ := Scene.cluster_of_ofGraph laidOut isCluster
    obtain ⟨-, id, given⟩ := supplied.subgraphs subgraph isSubgraph
    have text : caption.text = Cluster.titleOf subgraph := by
      rw [← same, ← Option.some.inj ((title_of_caption? shown).symm.trans titled)]
    rw [text, Cluster.titleOf]
    split
    · rename_i isGiven
      split
      · exact id
      · exact given _ isGiven
    · exact id
  · obtain ⟨edge, isEdge, given⟩ := List.mem_filterMap.1 isLabel
    exact supplied.edges edge isEdge _ (Option.filter_eq_some_iff.1 given).1
  · obtain ⟨node, isNode, same⟩ := List.mem_map.1 isLabel
    exact same ▸ (supplied.nodes node isNode).2

theorem isLegal_of_isWordChar {c : Char} (isWordChar : Lexeme.isWordChar c = true) : isLegal c = true := by
  -- The table of letters and numbers has neither of the two last characters of its plane.
  have table : ∀ range ∈ Text.alphanumericRanges, range.2 < 0xFFFE ∨ 0xFFFF < range.1 := by
    decide +kernel
  refine isLegal_iff.2 (.inr (.inr (.inr ?_)))
  rw [Lexeme.isWordChar, Bool.or_eq_true, decide_eq_true_eq, Text.isAlphanumeric] at isWordChar
  rcases isWordChar with isAlphanumeric | rfl
  · split at isAlphanumeric
    · have bounds := Text.bounds_of_isAlphanum isAlphanumeric
      omega
    · obtain ⟨range, isRange, inside⟩ := List.any_eq_true.1 isAlphanumeric
      simp only [Bool.and_eq_true, decide_eq_true_eq] at inside
      have := table range isRange
      omega
  · decide

theorem legal_of_isWord {id : String} (isWord : IsWord id) : Legal id :=
  List.all_eq_true.2 fun c mem => isLegal_of_isWordChar (List.all_eq_true.1 isWord c mem)

theorem unfiltered_of_graphOf (built : graphOf source = .ok graph)
    (laidOut : Scene.ofGraph graph settings.metrics = .ok scene) :
    Unfiltered source settings graph scene (render settings scene) := by
  obtain ⟨diagram, -, described⟩ := Rendering.diagram_of_graphOf built
  have nodup := (Graph.wellFormed_ofDiagram described).1
  have supplied := Rendering.supplied_of_graphOf built
  obtain ⟨clusters, shapes⟩ := supplied_ids supplied nodup laidOut
  have subset := supplied_captions supplied nodup laidOut
  have illegal : illegal (render settings scene).toList = illegal settings.fontFamily.toList ++
      (scene.captions settings.metrics).flatMap (illegalCaption settings) :=
    illegal_document (fun cluster mem => legal_of_isWord (clusters cluster mem)) fun shape mem =>
      legal_of_isWord (shapes shape mem)
  have legal : Legal (render settings scene) ↔ Legal settings.fontFamily ∧
      ∀ caption ∈ scene.captions settings.metrics, Legal (drawnText settings caption) := by
    rw [Legal, ← illegal_eq_nil, illegal, List.append_eq_nil_iff, illegal_eq_nil, List.flatMap_eq_nil_iff]
    simp only [illegalCaption, illegal_eq_nil]
    rfl
  refine ⟨Scene.texts_of_ofGraph nodup laidOut, subset, illegal, legal, fun font isLegal => ?_⟩
  refine legal.2 ⟨font, fun caption mem => legal_sanitize settings.security ?_⟩
  exact all_isLegal_of_subset (subset caption mem) isLegal

theorem unfiltered_draw {svg : String} (drawn : (Rendering.draw source settings Renderer.svg).svg = some svg) :
    ∃ graph scene, (Rendering.draw source settings Renderer.svg).graph = some graph ∧
      (Rendering.draw source settings Renderer.svg).scene = some scene ∧
      Unfiltered source settings graph scene svg := by
  have course := Rendering.course_draw source settings Renderer.svg
  generalize Rendering.draw source settings Renderer.svg = rendering at course drawn
  cases course with
  | @drawn graph scene renderer svg built _ laidOut isRenderer rendered =>
    cases drawn
    cases isRenderer
    obtain rfl := Except.ok.inj rendered
    exact ⟨graph, scene, rfl, rfl, unfiltered_of_graphOf built laidOut⟩
  | _ => cases drawn

/-- Control characters in a label between brackets, in one between quotes, inside a link and between bars. -/
def controlled : String :=
  "graph TD\nA[\x01] -- \x02 --> B(\"\x03\")\nB -->|\x04| A"

def controlledGraph : Graph :=
  ⟨.TD, [⟨"A", "\x01", .rectangle⟩, ⟨"B", "\x03", .rounded⟩],
    [⟨"A", "B", some "\x02", .solid, true⟩, ⟨"B", "A", some "\x04", .solid, true⟩], []⟩

theorem graphOf_controlled : graphOf controlled = .ok controlledGraph :=
  ok_of_toOption (by decide +kernel)

/-- They all stand in the picture. -/
theorem draw_controlled : ∃ svg, (Rendering.draw controlled {} Renderer.svg).svg = some svg ∧
    illegal svg.toList = ['\x02', '\x04', '\x01', '\x03'] ∧ ¬Legal svg := by
  obtain ⟨scene, laidOut, run⟩ := Rendering.draw_of_graphOf graphOf_controlled (by decide) {}
  obtain ⟨texts, -, isIllegal, -, -⟩ := unfiltered_of_graphOf graphOf_controlled laidOut
  have noCluster : scene.clusters = [] :=
    List.eq_nil_iff_forall_not_mem.2 fun cluster mem => by
      obtain ⟨⟨subgraph, isSubgraph, -⟩, -⟩ := Scene.cluster_of_ofGraph laidOut mem
      cases isSubgraph
  have chars : illegal (render {} scene).toList = ['\x02', '\x04', '\x01', '\x03'] := by
    have shown : (scene.captions ({} : Settings).metrics).map Caption.text = ["\x02", "\x04", "\x01", "\x03"] := by
      rw [texts, noCluster]
      decide
    have drawn := congrArg (List.flatMap fun text => illegal (sanitize .strict text).toList) shown
    rw [List.flatMap_map] at drawn
    rw [isIllegal, show illegal ({} : Settings).fontFamily.toList = [] by decide, List.nil_append]
    exact drawn.trans (by decide +kernel)
  refine ⟨_, congrArg Rendering.svg run, chars, fun legal => ?_⟩
  rw [illegal_eq_nil.2 legal] at chars
  exact absurd chars (List.cons_ne_nil _ _).symm

theorem unfiltered_draw_font :
    let settings : Settings := { fontFamily := "\x0c" }
    ∃ svg, (Rendering.draw controlled settings Renderer.svg).svg = some svg ∧
    ∃ graph scene, (Rendering.draw controlled settings Renderer.svg).graph = some graph ∧
      (Rendering.draw controlled settings Renderer.svg).scene = some scene ∧
      Unfiltered controlled settings graph scene svg := by
  intro settings
  obtain ⟨scene, -, run⟩ := Rendering.draw_of_graphOf graphOf_controlled (by decide) settings
  have drawn := congrArg Rendering.svg run
  exact ⟨_, drawn, unfiltered_draw drawn⟩

end Svg
end Flowchart
