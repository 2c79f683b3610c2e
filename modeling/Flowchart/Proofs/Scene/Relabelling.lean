import Flowchart.Proofs.Related
import Flowchart.Proofs.Scene.Rows
import Flowchart.Scene.Drawing
import Flowchart.Scene.Layout

/-!
Graphs that differ in their texts. Of a label, a layout reads nothing but its length, and of a title only whether there
is one. So if the texts of a graph are replaced by others of the same length, each in its place, the layout ends in the
same way, and the two scenes differ in these texts only.
-/
namespace Flowchart

/-- Texts that may take the place of one another: every text that of itself, and others of the same length only. -/
structure KeepsLength (alike : String → String → Prop) : Prop where
  refl : ∀ text, alike text text
  length : ∀ text other, alike text other → other.length = text.length

section relations

variable (alike : String → String → Prop) {α : Type}

/-- The same node with a text in the place of its label. -/
inductive Node.Relabels (node : Node) : Node → Prop where
  | intro {label : String} : alike node.label label → Relabels node { node with label }

inductive Edge.Relabels (edge : Edge) : Edge → Prop where
  | intro {label : Option String} : Option.Rel alike edge.label label → Relabels edge { edge with label }

inductive Subgraph.Relabels (subgraph : Subgraph) : Subgraph → Prop where
  | intro {title : Option String} : Option.Rel alike subgraph.title title → Relabels subgraph { subgraph with title }

/-- The same graph with texts in the place of its labels and titles. -/
structure Graph.Relabels (graph other : Graph) : Prop where
  direction : other.direction = graph.direction
  nodes : List.Forall₂ (Node.Relabels alike) graph.nodes other.nodes
  edges : List.Forall₂ (Edge.Relabels alike) graph.edges other.edges
  subgraphs : List.Forall₂ (Subgraph.Relabels alike) graph.subgraphs other.subgraphs

inductive Sized.Relabels (sized : Sized α) : Sized α → Prop where
  | intro {node : Node} : Node.Relabels alike sized.node node → Relabels sized { sized with node }

inductive ShapeBox.Relabels (shape : ShapeBox α) : ShapeBox α → Prop where
  | intro {label : String} : alike shape.label label → Relabels shape { shape with label }

inductive Connector.Relabels (connector : Connector α) : Connector α → Prop where
  | intro {label : Option String} : Option.Rel alike connector.label label →
      Relabels connector { connector with label }

inductive Cluster.Relabels (cluster : Cluster α) : Cluster α → Prop where
  | intro {title : Option String} : Option.Rel alike cluster.title title → Relabels cluster { cluster with title }

inductive Caption.Relabels (caption : Caption α) : Caption α → Prop where
  | intro {text : String} : alike caption.text text → Relabels caption { caption with text }

structure Layout.Content.Relabels (content other : Content α) : Prop where
  boxes : List.Forall₂ (ShapeBox.Relabels alike) content.boxes other.boxes
  clusters : List.Forall₂ (Cluster.Relabels alike) content.clusters other.clusters
  connectors : List.Forall₂ (Connector.Relabels alike) content.connectors other.connectors

/-- The same scene with texts in the place of its labels and titles. -/
structure Scene.Relabels (scene other : Scene α) : Prop where
  direction : other.direction = scene.direction
  width : other.width = scene.width
  height : other.height = scene.height
  shapes : List.Forall₂ (ShapeBox.Relabels alike) scene.shapes other.shapes
  connectors : List.Forall₂ (Connector.Relabels alike) scene.connectors other.connectors
  clusters : List.Forall₂ (Cluster.Relabels alike) scene.clusters other.clusters

end relations

variable {alike : String → String → Prop} {α : Type} [Coordinate α] {graph other : Graph} {metrics : Metrics α}

section texts

variable (keeps : KeepsLength alike)
include keeps

theorem KeepsLength.empty_iff {text image : String} (isAlike : alike text image) : image = "" ↔ text = "" := by
  rw [← String.length_eq_zero_iff, keeps.length _ _ isAlike, String.length_eq_zero_iff]

theorem KeepsLength.getD_iff {text image : Option String} (areAlike : Option.Rel alike text image) :
    image.getD "" = "" ↔ text.getD "" = "" := by
  cases areAlike with
  | none => rfl
  | some isAlike => exact keeps.empty_iff isAlike

end texts

/-! ### Ranks and nesting -/

namespace Graph.Relabels

variable (relabels : graph.Relabels alike other)
include relabels

theorem ids_eq : other.ids = graph.ids :=
  map_eq_of_forall₂ relabels.nodes fun _ _ ⟨_⟩ => rfl

theorem targetsOf_eq : other.targetsOf = graph.targetsOf := by
  funext wave
  exact map_eq_of_forall₂ (forall₂_filter relabels.edges fun _ _ ⟨_⟩ => rfl) fun _ _ ⟨_⟩ => rfl

theorem sources_eq : other.sources = graph.sources := by
  rw [sources, sources, relabels.ids_eq]
  refine List.filter_congr fun id _ => congrArg (!·) ?_
  exact any_eq_of_forall₂ relabels.edges fun _ _ ⟨_⟩ => rfl

theorem rank_eq : other.rank = graph.rank := by
  funext id
  rw [rank, rank, rankOrder_congr relabels.targetsOf_eq relabels.ids_eq relabels.sources_eq]

theorem missingEnd?_eq : other.missingEnd? = graph.missingEnd? := by
  rw [missingEnd?, missingEnd?, relabels.ids_eq]
  exact findSome?_eq_of_forall₂ relabels.edges fun _ _ ⟨_⟩ => rfl

theorem rel_subgraph? (id : String) :
    Option.Rel (Subgraph.Relabels alike) (graph.subgraph? id) (other.subgraph? id) :=
  rel_find? (List.rel_reverse relabels.subgraphs) fun _ _ ⟨_⟩ => rfl

theorem agrees_visit (fuel : Nat) {visited images : List Subgraph} {subgraph image : Subgraph}
    (before : List.Forall₂ (Subgraph.Relabels alike) visited images) (isImage : subgraph.Relabels alike image) :
    Agrees (List.Forall₂ (Subgraph.Relabels alike)) (graph.visit fuel visited subgraph)
      (other.visit fuel images image) := by
  induction fuel generalizing visited images subgraph image with
  | zero =>
    obtain ⟨areAlike⟩ := isImage
    have known : images.any (·.id == subgraph.id) = visited.any (·.id == subgraph.id) :=
      any_eq_of_forall₂ before fun _ _ ⟨_⟩ => rfl
    rw [visit, visit, known]
    split
    · exact .ok before
    · exact .error _
  | succ fuel ih =>
    obtain ⟨areAlike⟩ := isImage
    have known : images.any (·.id == subgraph.id) = visited.any (·.id == subgraph.id) :=
      any_eq_of_forall₂ before fun _ _ ⟨_⟩ => rfl
    rw [visit, visit, known, relabels.ids_eq]
    dsimp only
    split
    · exact .ok before
    split
    · exact .error _
    -- Both subgraphs have the same children, so that the loops run over the same ids.
    have ids : List.Forall₂ Eq subgraph.children subgraph.children := List.forall₂_same.2 fun _ _ => rfl
    refine Agrees.bind (agrees_foldlM ?_ ids before) ?_
    · rintro id _ rfl visited images before
      have found := relabels.rel_subgraph? id
      generalize graph.subgraph? id = child at found ⊢
      generalize other.subgraph? id = child' at found ⊢
      cases found with
      | none => exact .error _
      | some isChild => exact ih before isChild
    · intro visited images before
      exact .ok (List.rel_append before (.cons (.intro areAlike) .nil))

theorem agrees_nestingOrder :
    Agrees (List.Forall₂ (Subgraph.Relabels alike)) graph.nestingOrder other.nestingOrder := by
  rw [nestingOrder, nestingOrder, ← relabels.subgraphs.length_eq]
  refine agrees_foldlM ?_ relabels.subgraphs .nil
  intro _ _ isImage _ _ before
  exact relabels.agrees_visit _ before isImage

end Graph.Relabels

/-! ### Boxes -/

theorem Metrics.nodeSize_congr {text image : String} (same : image.length = text.length) (shape : Shape) :
    metrics.nodeSize shape image = metrics.nodeSize shape text := by
  simp only [nodeSize, textWidth, same]

namespace Placement

section row

variable {row images : List (Sized α)} (relabels : List.Forall₂ (Sized.Relabels alike) row images)
include relabels

theorem rowDepth_eq (direction : Direction) : rowDepth direction images = rowDepth direction row :=
  congrArg Coordinate.maximum (map_eq_of_forall₂ relabels fun _ _ ⟨_⟩ => rfl)

theorem rowBreadth_eq (direction : Direction) (metrics : Metrics α) :
    rowBreadth direction metrics images = rowBreadth direction metrics row := by
  have breadths : images.map (Sized.breadth direction) = row.map (Sized.breadth direction) :=
    map_eq_of_forall₂ relabels fun _ _ ⟨_⟩ => rfl
  rw [rowBreadth, rowBreadth, breadths, relabels.length_eq]

theorem relabels_placeRow (direction : Direction) (gap : α) (rank : Nat) (start depth : α) (order : Nat) (along : α) :
    List.Forall₂ (ShapeBox.Relabels alike) (placeRow direction gap rank start depth order along row)
      (placeRow direction gap rank start depth order along images) := by
  induction relabels generalizing order along with
  | nil => exact .nil
  | @cons sized _ _ _ isImage _ ih =>
    obtain ⟨⟨isAlike⟩⟩ := isImage
    rw [placeRow, placeRow]
    exact .cons (.intro isAlike) (ih _ _)

end row

theorem relabels_placeRows {rows images : List (List (Sized α))}
    (relabels : List.Forall₂ (List.Forall₂ (Sized.Relabels alike)) rows images) (direction : Direction)
    (metrics : Metrics α) (widest : α) (rank : Nat) (starts : List α) :
    List.Forall₂ (ShapeBox.Relabels alike) (placeRows direction metrics widest rank (rows.zip starts))
      (placeRows direction metrics widest rank (images.zip starts)) := by
  induction relabels generalizing rank starts with
  | nil => exact .nil
  | cons isImage _ ih =>
    cases starts with
    | nil => exact .nil
    | cons start starts =>
      rw [List.zip_cons_cons, List.zip_cons_cons, placeRows, placeRows, rowBreadth_eq isImage, rowDepth_eq isImage]
      exact List.rel_append (relabels_placeRow isImage ..) (ih _ _)

theorem relabels_rows (keeps : KeepsLength alike) (relabels : graph.Relabels alike other) (metrics : Metrics α) :
    List.Forall₂ (List.Forall₂ (Sized.Relabels alike)) (rows graph metrics) (rows other metrics) := by
  have last : other.lastRank = graph.lastRank := by
    rw [Graph.lastRank, Graph.lastRank, relabels.rank_eq]
    refine congrArg (List.foldl max 0) (map_eq_of_forall₂ relabels.nodes ?_)
    rintro node _ ⟨_⟩
    rfl
  rw [rows_eq, rows_eq, last, List.forall₂_map_left_iff, List.forall₂_map_right_iff, List.forall₂_same]
  intro rank _
  rw [Graph.ofRank, Graph.ofRank, relabels.rank_eq, List.forall₂_map_left_iff, List.forall₂_map_right_iff]
  refine (forall₂_filter relabels.nodes ?_).imp ?_
  · rintro node _ ⟨_⟩
    rfl
  rintro node _ ⟨isAlike⟩
  rw [Metrics.sized, Metrics.sized, Metrics.nodeSize_congr (keeps.length _ _ isAlike)]
  exact .intro (.intro isAlike)

theorem relabels_boxes (keeps : KeepsLength alike) (relabels : graph.Relabels alike other) (metrics : Metrics α) :
    List.Forall₂ (ShapeBox.Relabels alike) (boxes graph metrics) (boxes other metrics) := by
  have rows := relabels_rows keeps relabels metrics
  have breadths : (Placement.rows other metrics).map (rowBreadth graph.direction metrics) =
      (Placement.rows graph metrics).map (rowBreadth graph.direction metrics) :=
    map_eq_of_forall₂ rows fun _ _ isImage => rowBreadth_eq isImage ..
  have depths : (Placement.rows other metrics).map (rowDepth graph.direction) =
      (Placement.rows graph metrics).map (rowDepth graph.direction) :=
    map_eq_of_forall₂ rows fun _ _ isImage => rowDepth_eq isImage _
  rw [boxes, boxes, relabels.direction, breadths, depths]
  exact relabels_placeRows rows ..

theorem relabels_find (keeps : KeepsLength alike) {shapes images : List (ShapeBox α)}
    (relabels : List.Forall₂ (ShapeBox.Relabels alike) shapes images) (id : String) :
    (find shapes id).Relabels alike (find images id) :=
  rel_getD (rel_find? relabels fun _ _ ⟨_⟩ => rfl) (.intro (keeps.refl _))

end Placement

/-! ### Frames and routes -/

namespace Cluster

variable {shapes boxes : List (ShapeBox α)} {order visited : List Subgraph} {subgraph image : Subgraph}

theorem addFrame_eq (keeps : KeepsLength alike) (relabels : List.Forall₂ (ShapeBox.Relabels alike) shapes boxes)
    (isImage : subgraph.Relabels alike image) (frames : Frames α) :
    addFrame metrics boxes frames image = addFrame metrics shapes frames subgraph := by
  obtain ⟨_⟩ := isImage
  have own : (subgraph.members.map fun id => (Placement.find boxes id).box) =
      subgraph.members.map fun id => (Placement.find shapes id).box := by
    refine List.map_congr_left fun id _ => ?_
    have found := Placement.relabels_find keeps relabels id
    generalize Placement.find boxes id = box at found
    obtain ⟨_⟩ := found
    rfl
  simp only [addFrame, own]

theorem frames_eq (keeps : KeepsLength alike) (relabels : List.Forall₂ (ShapeBox.Relabels alike) shapes boxes)
    (areImages : List.Forall₂ (Subgraph.Relabels alike) order visited) (frames : Frames α) :
    visited.foldl (addFrame metrics boxes) frames = order.foldl (addFrame metrics shapes) frames := by
  induction areImages generalizing frames with
  | nil => rfl
  | cons isImage _ ih => rw [List.foldl_cons, List.foldl_cons, addFrame_eq keeps relabels isImage, ih]

theorem alike_titleOf (keeps : KeepsLength alike) (isImage : subgraph.Relabels alike image) :
    alike (titleOf subgraph) (titleOf image) := by
  obtain ⟨areAlike⟩ := isImage
  rw [titleOf, titleOf]
  generalize subgraph.title = title at areAlike ⊢
  cases areAlike with
  | none => exact keeps.refl _
  | some isAlike =>
    simp only [keeps.empty_iff isAlike]
    split
    · exact keeps.refl _
    · exact isAlike

theorem relabels_ofGraph (keeps : KeepsLength alike) (graphs : graph.Relabels alike other)
    (relabels : List.Forall₂ (ShapeBox.Relabels alike) shapes boxes)
    (areImages : List.Forall₂ (Subgraph.Relabels alike) order visited) :
    List.Forall₂ (Cluster.Relabels alike) (ofGraph graph metrics shapes order)
      (ofGraph other metrics boxes visited) := by
  rw [ofGraph, ofGraph, frames_eq keeps relabels areImages]
  refine List.rel_filterMap ?_ graphs.subgraphs
  intro subgraph image isImage
  have found : Option.Rel (Subgraph.Relabels alike) (order.find? (·.id == subgraph.id))
      (visited.find? (·.id == image.id)) := by
    obtain ⟨_⟩ := isImage
    exact rel_find? areImages fun _ _ ⟨_⟩ => rfl
  have titles := alike_titleOf keeps (rel_getD found isImage)
  obtain ⟨_⟩ := isImage
  dsimp only at titles ⊢
  cases (List.lookup subgraph.id (order.foldl (addFrame metrics shapes) [])).join with
  | none => exact .none
  | some box => exact .some (.intro (.some titles))

end Cluster

namespace Connector

section routes

variable (keeps : KeepsLength alike) {boxes images : List (ShapeBox α)}
  (relabels : List.Forall₂ (ShapeBox.Relabels alike) boxes images)
include keeps relabels

theorem relabels_route (direction : Direction) (index : Int) (earlier count : Nat) {edge image : Edge}
    (isImage : edge.Relabels alike image) : (route direction boxes index earlier count edge).Relabels alike
      (route direction images index earlier count image) := by
  obtain ⟨areAlike⟩ := isImage
  have source := Placement.relabels_find keeps relabels edge.source
  have target := Placement.relabels_find keeps relabels edge.target
  rw [route, route]
  dsimp only
  generalize Placement.find images edge.source = source' at source ⊢
  generalize Placement.find images edge.target = target' at target ⊢
  obtain ⟨_⟩ := source
  obtain ⟨_⟩ := target
  simp only [keeps.getD_iff areAlike]
  exact .intro areAlike

theorem relabels_routeFrom (direction : Direction) {all others earlier before edges behind : List Edge}
    (whole : List.Forall₂ (Edge.Relabels alike) all others) (front : List.Forall₂ (Edge.Relabels alike) earlier before)
    (areImages : List.Forall₂ (Edge.Relabels alike) edges behind) :
    List.Forall₂ (Connector.Relabels alike) (routeFrom direction boxes all earlier edges)
      (routeFrom direction images others before behind) := by
  induction areImages generalizing earlier before with
  | nil => exact .nil
  | @cons edge image _ _ isImage _ ih =>
    have parallel {some any : List Edge} (both : List.Forall₂ (Edge.Relabels alike) some any) :
        any.countP image.isParallel = some.countP edge.isParallel := by
      obtain ⟨_⟩ := isImage
      exact countP_eq_of_forall₂ both fun _ _ ⟨_⟩ => rfl
    rw [routeFrom, routeFrom, parallel front, parallel whole, front.length_eq]
    exact .cons (relabels_route keeps relabels direction _ _ _ isImage) (ih (.cons isImage front))

theorem relabels_ofGraph (graphs : graph.Relabels alike other) :
    List.Forall₂ (Connector.Relabels alike) (ofGraph graph boxes) (ofGraph other images) := by
  rw [ofGraph, ofGraph, graphs.direction]
  exact relabels_routeFrom keeps relabels graph.direction graphs.edges .nil graphs.edges

end routes

end Connector

/-! ### Scenes -/

theorem Metrics.edgeLabelSize_congr {text image : String} (same : image.length = text.length) :
    metrics.edgeLabelSize image = metrics.edgeLabelSize text := by
  rw [edgeLabelSize, edgeLabelSize, textWidth, textWidth, same]

theorem ShapeBox.Relabels.caption {shape image : ShapeBox α} (relabels : shape.Relabels alike image) :
    shape.caption.Relabels alike image.caption := by
  obtain ⟨isAlike⟩ := relabels
  exact .intro isAlike

section captions

variable (keeps : KeepsLength alike)
include keeps

theorem Cluster.Relabels.caption? {cluster image : Cluster α} (relabels : cluster.Relabels alike image) :
    Option.Rel (Caption.Relabels alike) (cluster.caption? metrics) (image.caption? metrics) := by
  obtain ⟨areAlike⟩ := relabels
  rw [Cluster.caption?, Cluster.caption?]
  dsimp only
  generalize cluster.title = title at areAlike ⊢
  cases areAlike with
  | none => exact .none
  | some isAlike =>
    simp only [keeps.empty_iff isAlike]
    split
    · exact .none
    · exact .some (.intro isAlike)

namespace Connector.Relabels

variable {connector image : Connector α} (relabels : connector.Relabels alike image)
include relabels

omit [Coordinate α] in
theorem caption? : Option.Rel (Caption.Relabels alike) connector.caption? image.caption? := by
  obtain ⟨areAlike⟩ := relabels
  rw [Connector.caption?, Connector.caption?]
  dsimp only
  generalize connector.label = label at areAlike ⊢
  cases areAlike with
  | none => exact .none
  | some isAlike =>
    cases connector.labelAt with
    | none => exact .none
    | some place =>
      simp only [keeps.empty_iff isAlike]
      split
      · exact .none
      · exact .some (.intro isAlike)

theorem labelBounds_eq : image.labelBounds metrics = connector.labelBounds metrics := by
  obtain ⟨areAlike⟩ := relabels
  rw [labelBounds, labelBounds]
  dsimp only
  generalize connector.label = label at areAlike ⊢
  cases areAlike with
  | none => rfl
  | some isAlike =>
    cases connector.labelAt with
    | none => rfl
    | some place =>
      simp only [keeps.empty_iff isAlike, Metrics.edgeLabelSize_congr (keeps.length _ _ isAlike)]
      rfl

end Connector.Relabels

end captions

namespace Layout.Content.Relabels

variable {content image : Content α} (keeps : KeepsLength alike) (relabels : content.Relabels alike image)
include keeps relabels

/-- Both contents reach as far on all four sides. -/
theorem edges_eq (metrics : Metrics α) :
    image.lefts metrics = content.lefts metrics ∧ image.tops metrics = content.tops metrics ∧
      image.rights metrics = content.rights metrics ∧ image.bottoms metrics = content.bottoms metrics := by
  have boxes (side : Box α → α) : image.boxes.map (fun shape => side shape.box) =
      content.boxes.map fun shape => side shape.box :=
    map_eq_of_forall₂ relabels.boxes fun _ _ ⟨_⟩ => rfl
  have clusters (side : Box α → α) : image.clusters.map (fun cluster => side cluster.box) =
      content.clusters.map fun cluster => side cluster.box :=
    map_eq_of_forall₂ relabels.clusters fun _ _ ⟨_⟩ => rfl
  have lines (line : List (Point α) → (α × α) × α × α → List α) :
      image.connectors.flatMap (fun connector => line connector.points (connector.labelBounds metrics)) =
        content.connectors.flatMap fun connector => line connector.points (connector.labelBounds metrics) := by
    refine flatMap_eq_of_forall₂ relabels.connectors fun connector image isImage => ?_
    rw [isImage.labelBounds_eq keeps]
    obtain ⟨_⟩ := isImage
    rfl
  have bounds (bound : (α × α) × α × α → α) :
      image.connectors.map (fun connector => bound (connector.labelBounds metrics)) =
        content.connectors.map fun connector => bound (connector.labelBounds metrics) :=
    map_eq_of_forall₂ relabels.connectors fun _ _ isImage => congrArg bound (isImage.labelBounds_eq keeps)
  refine ⟨?_, ?_, ?_, ?_⟩
  · rw [lefts, lefts, boxes Box.x, clusters Box.x, lines fun points bounds => points.map Point.x ++ [bounds.1.1]]
  · rw [tops, tops, boxes Box.y, clusters Box.y, lines fun points bounds => points.map Point.y ++ [bounds.1.2]]
  · rw [rights, rights, boxes Box.right, clusters Box.right, lines fun points _ => points.map Point.x,
      bounds fun bounds => bounds.2.1]
  · rw [bottoms, bottoms, boxes Box.bottom, clusters Box.bottom, lines fun points _ => points.map Point.y,
      bounds fun bounds => bounds.2.2]

omit keeps in
theorem shift (dx dy : α) : (content.shift dx dy).Relabels alike (image.shift dx dy) := by
  constructor
  · exact List.rel_map (fun _ _ ⟨isAlike⟩ => .intro isAlike) relabels.boxes
  · exact List.rel_map (fun _ _ ⟨areAlike⟩ => .intro areAlike) relabels.clusters
  · exact List.rel_map (fun _ _ ⟨areAlike⟩ => .intro areAlike) relabels.connectors

theorem arrange (ids : List String) : (content.arrange ids).Relabels alike (image.arrange ids) where
  boxes := by
    refine List.forall₂_map_left_iff.2 (List.forall₂_map_right_iff.2 (List.forall₂_same.2 fun id _ => ?_))
    exact Placement.relabels_find keeps relabels.boxes id
  clusters := relabels.clusters
  connectors := relabels.connectors

theorem scene (direction : Direction) (metrics : Metrics α) (ids : List String) :
    (content.scene direction metrics ids).Relabels alike (image.scene direction metrics ids) := by
  obtain ⟨lefts, tops, -, -⟩ := relabels.edges_eq keeps metrics
  rw [Content.scene, Content.scene, lefts, tops]
  have moved := (relabels.arrange keeps ids).shift (offset metrics (content.lefts metrics))
    (offset metrics (content.tops metrics))
  obtain ⟨-, -, rights, bottoms⟩ := moved.edges_eq keeps metrics
  exact ⟨rfl, congrArg (Coordinate.maximum · + metrics.padding) rights,
    congrArg (Coordinate.maximum · + metrics.padding) bottoms, moved.boxes, moved.connectors, moved.clusters⟩

end Layout.Content.Relabels

/-- Graphs that differ in their texts, of the same length each, have layouts that differ in these texts only. -/
theorem Scene.relabels_ofGraph (keeps : KeepsLength alike) (relabels : graph.Relabels alike other)
    (metrics : Metrics α) : Agrees (Scene.Relabels alike) (ofGraph graph metrics) (ofGraph other metrics) := by
  have empty : other.nodes = [] ↔ graph.nodes = [] := by
    rw [← List.length_eq_zero_iff, ← relabels.nodes.length_eq, List.length_eq_zero_iff]
  rw [ofGraph, ofGraph, relabels.missingEnd?_eq, relabels.ids_eq, relabels.direction]
  simp only [empty]
  split
  · exact .error _
  split
  · exact .error _
  refine relabels.agrees_nestingOrder.bind fun order visited areImages => .ok ?_
  have boxes := Placement.relabels_boxes keeps relabels metrics
  have content : Layout.Content.Relabels alike
      ⟨Placement.boxes graph metrics, Cluster.ofGraph graph metrics (Placement.boxes graph metrics) order,
        Connector.ofGraph graph (Placement.boxes graph metrics)⟩
      ⟨Placement.boxes other metrics, Cluster.ofGraph other metrics (Placement.boxes other metrics) visited,
        Connector.ofGraph other (Placement.boxes other metrics)⟩ :=
    ⟨boxes, Cluster.relabels_ofGraph keeps relabels boxes areImages, Connector.relabels_ofGraph keeps boxes relabels⟩
  exact content.scene keeps graph.direction metrics graph.ids

end Flowchart
