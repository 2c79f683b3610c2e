import Flowchart.Scene.Drawing
import Flowchart.Svg.Label
import Flowchart.Svg.Numeral
import Flowchart.Xml

/-!
Scenes as SVG documents: a definition of the arrowhead, a background, and one group for each cluster,
connector and shape, in this order, so that later ones lie on top.
-/
namespace Flowchart.Svg

open Xml

/-- The colours of a theme. -/
structure Palette where
  background : String
  nodeFill : String
  nodeStroke : String
  text : String
  edge : String
  clusterFill : String
  clusterStroke : String
  labelBackground : String

/-- The colours that a theme draws with. -/
def palette : Theme → Palette
  | .light =>
    ⟨"#ffffff", "#ececff", "#9370db", "#333333", "#333333", "#ffffde", "#aaaa33", "#e8e8e8"⟩
  | .dark =>
    ⟨"#1f2020", "#1f2020", "#cccccc", "#e0dfdf", "#d3d3d3", "#2b2b3b", "#6b6b8b", "#585858"⟩

def boxAttributes (box : Box Float) : List (String × String) :=
  [("x", numeral box.x), ("y", numeral box.y), ("width", numeral box.width),
    ("height", numeral box.height)]

def textElement (settings : Settings) (caption : Caption Float) : Element :=
  .leaf "text"
    [("x", numeral caption.place.x), ("y", numeral caption.place.y),
      ("fill", (palette settings.theme).text), ("text-anchor", "middle"),
      ("dominant-baseline", "central")]
    (sanitize settings.security caption.text)

def outlineElement (style : List (String × String)) : Outline Float → Element
  | .circle center radius =>
    .node "circle"
      ([("cx", numeral center.x), ("cy", numeral center.y), ("r", numeral radius)] ++ style) []
  | .polygon corners => .node "polygon" (("points", pointList corners) :: style) []
  | .rectangle box radius =>
    .node "rect" (boxAttributes box ++ [("rx", numeral radius), ("ry", numeral radius)] ++ style) []

def shapeElement (settings : Settings) (shape : ShapeBox Float) : Element :=
  let colors := palette settings.theme
  .node "g" [("class", "node " ++ shape.shape.name), ("id", "node-" ++ shape.id)]
    [outlineElement
      [("fill", colors.nodeFill), ("stroke", colors.nodeStroke), ("stroke-width", "1.5")]
      shape.outline,
      textElement settings shape.caption]

def strokeWidth : EdgeStyle → String
  | .solid | .dashed => "2"
  | .thick => "3.5"

/-- The label of an edge before its background. -/
def edgeLabelElements (settings : Settings) (caption : Caption Float) : List Element :=
  [.node "rect"
    (boxAttributes (caption.background settings.metrics) ++
      [("fill", (palette settings.theme).labelBackground)]) [],
    textElement settings caption]

def connectorElement (settings : Settings) (connector : Connector Float) : Element :=
  let line : Element := .node "polyline"
    ([("points", pointList connector.points), ("fill", "none"),
      ("stroke", (palette settings.theme).edge), ("stroke-width", strokeWidth connector.style)] ++
      (if connector.style = .dashed then [("stroke-dasharray", "4 3")] else []) ++
      (if connector.head then [("marker-end", "url(#arrowhead)")] else [])) []
  .node "g"
    [("class", "edge " ++ connector.style.name), ("id", "edge-" ++ toString connector.index)]
    (line :: (connector.caption?.map (edgeLabelElements settings)).getD [])

def clusterElement (settings : Settings) (cluster : Cluster Float) : Element :=
  let colors := palette settings.theme
  .node "g" [("class", "cluster"), ("id", "cluster-" ++ cluster.id)]
    (.node "rect"
      (boxAttributes cluster.box ++
        [("fill", colors.clusterFill), ("stroke", colors.clusterStroke)]) [] ::
      ((cluster.caption? settings.metrics).map (textElement settings)).toList)

def definitions (settings : Settings) : Element :=
  .node "defs" []
    [.node "marker"
      [("id", "arrowhead"), ("viewBox", "0 0 10 10"), ("refX", "9"), ("refY", "5"),
        ("markerWidth", "8"), ("markerHeight", "8"), ("orient", "auto-start-reverse")]
      [.node "path" [("d", "M 0 0 L 10 5 L 0 10 z"), ("fill", (palette settings.theme).edge)] []]]

def background (settings : Settings) : Element :=
  .node "rect"
    [("class", "background"), ("width", "100%"), ("height", "100%"),
      ("fill", (palette settings.theme).background)] []

def document (settings : Settings) (scene : Scene Float) : Element :=
  let width := numeral scene.width
  let height := numeral scene.height
  .node "svg"
    [("xmlns", "http://www.w3.org/2000/svg"), ("width", width), ("height", height),
      ("viewBox", "0 0 " ++ width ++ " " ++ height), ("font-family", settings.fontFamily),
      ("font-size", numeral settings.metrics.fontSize)]
    ([definitions settings, background settings] ++ scene.clusters.map (clusterElement settings) ++
      scene.connectors.map (connectorElement settings) ++ scene.shapes.map (shapeElement settings))

/-- The text of the document of a scene. -/
def render (settings : Settings) (scene : Scene Float) : String :=
  (document settings scene).render

end Flowchart.Svg
