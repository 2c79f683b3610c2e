import Flowchart.Graph.Builder

/-!
The outline of a diagram: all of its statements in the order of the document, the ones of a block behind the
block, each with the block directly around it. What a diagram mentions, joins and groups is read off the
outline; the events that a graph is built from say the same.
-/
namespace Flowchart

namespace Statement

mutual

def outline (around : Option String) : Statement → List (Option String × Statement)
  | node ref span => [(around, node ref span)]
  | chain nodes links span => [(around, chain nodes links span)]
  | subgraph id title body span =>
    (around, subgraph id title body span) :: outlineOfList (some id) body

def outlineOfList (around : Option String) : List Statement → List (Option String × Statement)
  | [] => []
  | statement :: rest => statement.outline around ++ outlineOfList around rest

end

/-- The references of the statement itself, not those of the statements inside it. -/
def refs : Statement → List NodeRef
  | node ref _ => [ref]
  | chain nodes _ _ => nodes
  | subgraph _ _ _ _ => []

def links : Statement → List Link
  | chain _ links _ => links
  | _ => []

/-- The id and the title of the statement itself if it is a block. -/
def heads : Statement → List (String × Option String)
  | subgraph id title _ _ => [(id, title)]
  | _ => []

/-- The link at place `i` joins the nodes at the places `i` and `i + 1`. -/
def edgeAt? (nodes : List NodeRef) : Link × Nat → Option Edge
  | (link, i) =>
    match nodes[i]?, nodes[i + 1]? with
    | some source, some target => some ⟨source.id, target.id, link.label, link.style, link.head⟩
    | _, _ => none

def edges (statement : Statement) : List Edge :=
  statement.links.zipIdx.filterMap (edgeAt? statement.refs)

/-- A chain has a link between any two neighbours and no other. -/
def IsLinked : Statement → Prop
  | chain nodes links _ => nodes.length = links.length + 1
  | _ => True

end Statement

namespace Diagram

def outline (diagram : Diagram) : List (Option String × Statement) :=
  Statement.outlineOfList none diagram.statements

/-- All references to nodes, each with the block directly around it. -/
def mentions (diagram : Diagram) : List (Option String × NodeRef) :=
  diagram.outline.flatMap fun (around, statement) => statement.refs.map (around, ·)

def refs (diagram : Diagram) : List NodeRef :=
  diagram.outline.flatMap fun (_, statement) => statement.refs

def links (diagram : Diagram) : List Link :=
  diagram.outline.flatMap fun (_, statement) => statement.links

def edges (diagram : Diagram) : List Edge :=
  diagram.outline.flatMap fun (_, statement) => statement.edges

/-- All blocks by id and title, each with the block directly around it. -/
def blocks (diagram : Diagram) : List (Option String × String × Option String) :=
  diagram.outline.flatMap fun (around, statement) => statement.heads.map (around, ·)

theorem map_mentions (diagram : Diagram) : diagram.mentions.map Prod.snd = diagram.refs := by
  simp [mentions, refs, List.map_flatMap, Function.comp_def]

end Diagram

namespace Event

def mention? : Event → Option (Option String × NodeRef)
  | mention owner ref => some (owner, ref)
  | _ => none

def edge? : Event → Option Edge
  | edge joint => some joint
  | _ => none

def block? : Event → Option (Option String × String × Option String)
  | block owner id title _ => some (owner, id, title)
  | _ => none

end Event

namespace Statement

/-- What the statement itself tells. -/
def told (around : Option String) : Statement → List Event
  | node ref _ => [.mention around ref]
  | chain nodes links _ => nodes.map (.mention around) ++ (Link.edges nodes links).map .edge
  | subgraph id title _ span => [.block around id title span.start]

mutual

theorem events_eq_outline : ∀ (around : Option String) (statement : Statement),
    statement.events around =
      (statement.outline around).flatMap fun (around, statement) => statement.told around
  | around, node ref span => rfl
  | around, chain nodes links span => (List.append_nil _).symm
  | around, subgraph id title body span => by
    rw [outline, List.flatMap_cons, ← eventsOfList_eq_outline (some id) body]
    rfl

theorem eventsOfList_eq_outline : ∀ (around : Option String) (body : List Statement),
    events.eventsOfList around body =
      (outlineOfList around body).flatMap fun (around, statement) => statement.told around
  | around, [] => rfl
  | around, statement :: body => by
    rw [events.eventsOfList, outlineOfList, List.flatMap_append, ← events_eq_outline around statement,
      ← eventsOfList_eq_outline around body]

end

/-- The edges of a chain from the node at a place on. -/
theorem edges_drop (nodes : List NodeRef) (links : List Link) (start : Nat) :
    Link.edges (nodes.drop start) links = (links.zipIdx start).filterMap (edgeAt? nodes) := by
  induction links generalizing start with
  | nil => simp [Link.edges]
  | cons link links ih =>
    rw [List.zipIdx_cons]
    cases isSource : nodes[start]? with
    | none =>
      have short := List.getElem?_eq_none_iff.1 isSource
      rw [List.filterMap_cons_none (by simp [edgeAt?, isSource]), ← ih]
      simp [Link.edges, List.drop_eq_nil_of_le short, List.drop_eq_nil_of_le (Nat.le_succ_of_le short)]
    | some source =>
      rw [List.drop_eq_getElem?_toList_append, isSource]
      cases isTarget : nodes[start + 1]? with
      | none =>
        have short := List.getElem?_eq_none_iff.1 isTarget
        rw [List.filterMap_cons_none (by simp [edgeAt?, isSource, isTarget]), ← ih]
        simp [Link.edges, List.drop_eq_nil_of_le short]
      | some target =>
        have joined : edgeAt? nodes (link, start) =
            some ⟨source.id, target.id, link.label, link.style, link.head⟩ := by
          simp [edgeAt?, isSource, isTarget]
        rw [List.filterMap_cons_some joined, ← ih, List.drop_eq_getElem?_toList_append (i := start + 1),
          isTarget]
        simp [Link.edges]

theorem edges_chain (nodes : List NodeRef) (links : List Link) (span : Span) :
    (chain nodes links span).edges = Link.edges nodes links :=
  (edges_drop nodes links 0).symm

theorem mentions_told (around : Option String) (statement : Statement) :
    (statement.told around).filterMap Event.mention? = statement.refs.map (around, ·) := by
  cases statement with
  | node => rfl
  | chain nodes links =>
    have noMention (edges : List Edge) : (edges.map Event.edge).filterMap Event.mention? = [] := by
      simp [List.filterMap_map, Function.comp_def, Event.mention?]
    rw [told, List.filterMap_append, noMention, List.append_nil, List.filterMap_map]
    exact congrFun List.filterMap_eq_map nodes
  | subgraph => rfl

theorem edges_told (around : Option String) (statement : Statement) :
    (statement.told around).filterMap Event.edge? = statement.edges := by
  cases statement with
  | node => rfl
  | chain nodes links span =>
    have noEdge : (nodes.map (Event.mention around)).filterMap Event.edge? = [] := by
      simp [List.filterMap_map, Function.comp_def, Event.edge?]
    rw [told, List.filterMap_append, noEdge, List.nil_append, List.filterMap_map, edges_chain]
    exact List.filterMap_some
  | subgraph => rfl

theorem blocks_told (around : Option String) (statement : Statement) :
    (statement.told around).filterMap Event.block? = statement.heads.map (around, ·) := by
  cases statement with
  | node => rfl
  | chain nodes links =>
    have none (edges : List Edge) : (edges.map Event.edge).filterMap Event.block? = [] := by
      simp [List.filterMap_map, Function.comp_def, Event.block?]
    rw [told, List.filterMap_append, none, List.filterMap_map]
    simp [Function.comp_def, Event.block?, heads]
  | subgraph => rfl

/-- Each link of a linked statement gives its look to one edge. -/
theorem looks_edges {statement : Statement} (linked : statement.IsLinked) :
    (statement.edges.map fun edge => (edge.label, edge.style, edge.head)) =
      statement.links.map fun link => (link.label, link.style, link.head) := by
  cases statement with
  | node => rfl
  | subgraph => rfl
  | chain nodes links span =>
    have enough : links.length ≤ (nodes.zip (nodes.drop 1)).length := by
      simp only [IsLinked] at linked
      simp only [List.length_zip, List.length_drop]
      omega
    calc (chain nodes links span).edges.map (fun edge => (edge.label, edge.style, edge.head))
      _ = (((nodes.zip (nodes.drop 1)).zip links).map Prod.snd).map
            fun link => (link.label, link.style, link.head) := by
          rw [edges_chain, Link.edges, List.map_map, List.map_map]
          rfl
      _ = links.map fun link => (link.label, link.style, link.head) := by
          rw [List.map_snd_zip enough]

end Statement

namespace Diagram

theorem events_eq_outline (diagram : Diagram) :
    diagram.events = diagram.outline.flatMap fun (around, statement) => statement.told around :=
  Statement.eventsOfList_eq_outline none diagram.statements

theorem filterMap_mention? (diagram : Diagram) :
    diagram.events.filterMap Event.mention? = diagram.mentions := by
  rw [events_eq_outline, List.filterMap_flatMap, mentions]
  simp only [Statement.mentions_told]

theorem filterMap_edge? (diagram : Diagram) : diagram.events.filterMap Event.edge? = diagram.edges := by
  rw [events_eq_outline, List.filterMap_flatMap, edges]
  simp only [Statement.edges_told]

theorem filterMap_block? (diagram : Diagram) : diagram.events.filterMap Event.block? = diagram.blocks := by
  rw [events_eq_outline, List.filterMap_flatMap, blocks]
  simp only [Statement.blocks_told]

/-- If all chains are linked, there is one edge for each link, in order and with its look. -/
theorem looks_edges {diagram : Diagram} (linked : ∀ entry ∈ diagram.outline, entry.2.IsLinked) :
    (diagram.edges.map fun edge => (edge.label, edge.style, edge.head)) =
      diagram.links.map fun link => (link.label, link.style, link.head) := by
  rw [edges, links, List.map_flatMap, List.map_flatMap, List.flatMap_def, List.flatMap_def]
  refine congrArg List.flatten (List.map_congr_left ?_)
  intro entry mem
  exact Statement.looks_edges (linked entry mem)

end Diagram
end Flowchart
