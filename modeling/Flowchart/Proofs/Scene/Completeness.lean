import Flowchart.Proofs.Graph.Soundness
import Flowchart.Proofs.Scene.Rows
import Flowchart.Scene.Layout

/-!
A graph that describes a diagram is laid out as soon as it has a node. Whatever the layout looks up on its
way is there, and the visit of the subgraphs ends because each stands in front of its children.
-/
namespace Flowchart

variable {α : Type} [Coordinate α] {graph : Graph} {metrics : Metrics α} {id : String}
  {front behind subgraphs visited : List Subgraph} {subgraph : Subgraph}

theorem find?_of_nodup (nodup : (subgraphs.map Subgraph.id).Nodup) (mem : subgraph ∈ subgraphs) :
    subgraphs.find? (·.id == subgraph.id) = some subgraph := by
  induction subgraphs with
  | nil => cases mem
  | cons first rest ih =>
    obtain ⟨fresh, nodup⟩ := List.nodup_cons.1 nodup
    rw [List.find?_cons]
    rcases List.mem_cons.1 mem with rfl | mem
    · rw [beq_self_eq_true]
    · have differ : (first.id == subgraph.id) = false := by
        refine beq_false_of_ne ?_
        intro same
        exact fresh (same ▸ List.mem_map.2 ⟨_, mem, rfl⟩)
      rw [differ]
      exact ih nodup mem

theorem bind_ok {β γ ε : Type} {first : Except ε β} {next : β → Except ε γ} (isOk : ∃ b, first = .ok b)
    (goesOn : ∀ b, ∃ c, next b = .ok c) : ∃ c, (first >>= next) = .ok c := by
  obtain ⟨b, rfl⟩ := isOk
  exact goesOn b

/-- A loop whose steps all succeed succeeds. -/
theorem foldlM_ok {β γ ε : Type} {step : γ → β → Except ε γ} {items : List β}
    (total : ∀ item ∈ items, ∀ state, ∃ next, step state item = .ok next) (state : γ) :
    ∃ final, items.foldlM step state = .ok final := by
  induction items generalizing state with
  | nil => exact ⟨state, rfl⟩
  | cons item items ih =>
    obtain ⟨next, taken⟩ := total item List.mem_cons_self state
    obtain ⟨final, done⟩ := ih (fun other mem => total other (List.mem_cons_of_mem _ mem)) next
    refine ⟨final, ?_⟩
    rw [List.foldlM_cons, taken]
    exact done

namespace Graph

theorem subgraph?_of_mem (grouped : graph.Grouped) (mem : subgraph ∈ graph.subgraphs) :
    graph.subgraph? subgraph.id = some subgraph := by
  refine find?_of_nodup ?_ (List.mem_reverse.2 mem)
  rw [List.map_reverse]
  exact (List.reverse_perm _).symm.nodup grouped.distinct

/-- The child of a subgraph stands behind it. -/
theorem child_behind (grouped : graph.Grouped) (split : graph.subgraphs = front ++ subgraph :: behind)
    (mem : id ∈ subgraph.children) : ∃ child ∈ behind, graph.subgraph? id = some child := by
  have nested := nested_of_append (split ▸ grouped.nested)
  obtain ⟨child, isBehind, rfl⟩ := List.mem_map.1 (nested.1 id mem)
  refine ⟨child, isBehind, subgraph?_of_mem grouped ?_⟩
  rw [split]
  exact List.mem_append_right _ (List.mem_cons_of_mem _ isBehind)

/-- The subgraphs behind a subgraph bound how deep its nesting goes. -/
theorem visit_ok (grouped : graph.Grouped) (fuel : Nat) (visited : List Subgraph)
    (split : graph.subgraphs = front ++ subgraph :: behind) (enough : behind.length < fuel) :
    ∃ next, graph.visit fuel visited subgraph = .ok next := by
  induction fuel generalizing visited front subgraph behind with
  | zero => omega
  | succ fuel ih =>
    rw [visit]
    split
    · exact ⟨visited, rfl⟩
    · have isSubgraph : subgraph ∈ graph.subgraphs := by rw [split]; simp
      have members : (subgraph.members.find? fun id => !graph.ids.contains id) = none := by
        refine List.find?_eq_none.2 ?_
        intro id mem
        simpa using grouped.members subgraph isSubgraph id mem
      rw [members]
      refine bind_ok (foldlM_ok ?_ visited) fun before => ⟨before ++ [subgraph], rfl⟩
      intro id mem visited
      obtain ⟨child, isBehind, found⟩ := child_behind grouped split mem
      obtain ⟨between, rest, rfl⟩ := List.append_of_mem isBehind
      have deeper : graph.subgraphs = (front ++ subgraph :: between) ++ child :: rest := by
        rw [split, List.append_assoc, List.cons_append]
      rw [found]
      refine ih visited deeper ?_
      simp only [List.length_append, List.length_cons] at enough
      omega

theorem nestingOrder_ok (grouped : graph.Grouped) : ∃ order, graph.nestingOrder = .ok order := by
  refine foldlM_ok ?_ []
  intro subgraph mem visited
  obtain ⟨front, behind, split⟩ := List.append_of_mem mem
  refine visit_ok grouped _ visited split ?_
  rw [split, List.length_append, List.length_cons]
  omega

theorem missingEnd?_eq_none (wellFormed : graph.WellFormed) : graph.missingEnd? = none := by
  refine List.findSome?_eq_none_iff.2 ?_
  intro edge mem
  obtain ⟨source, target⟩ := wellFormed.2 edge mem
  simp [source, target]

end Graph

theorem Scene.ofGraph_ok (wellFormed : graph.WellFormed) (grouped : graph.Grouped) (some : graph.nodes ≠ [])
    (metrics : Metrics α) : ∃ scene, Scene.ofGraph graph metrics = .ok scene := by
  obtain ⟨order, ordered⟩ := Graph.nestingOrder_ok grouped
  rw [Scene.ofGraph, if_neg some, Graph.missingEnd?_eq_none wellFormed, ordered]
  exact ⟨_, rfl⟩

/-- A scene is what was laid out, moved into place. -/
theorem Scene.content_of_ofGraph {scene : Scene α} (laid : Scene.ofGraph graph metrics = .ok scene) :
    ∃ order, graph.nestingOrder = .ok order ∧
      scene = (⟨Placement.boxes graph metrics, Cluster.ofGraph graph metrics (Placement.boxes graph metrics) order,
        Connector.ofGraph graph (Placement.boxes graph metrics)⟩ : Layout.Content α).scene graph.direction metrics
          graph.ids := by
  rw [Scene.ofGraph] at laid
  split at laid
  · cases laid
  · split at laid
    · cases laid
    · cases ordered : graph.nestingOrder with
      | error =>
        rw [ordered] at laid
        cases laid
      | ok order =>
        rw [ordered] at laid
        cases laid
        exact ⟨order, rfl, rfl⟩

namespace Connector

theorem length_points (direction : Direction) (boxes : List (ShapeBox α)) (index : Int) (earlier count : Nat)
    (edge : Edge) : 2 ≤ (route direction boxes index earlier count edge).points.length := by
  simp only [route]
  split
  · rw [loop]
    split <;> exact Nat.le_add_left 2 2
  · rw [straight]
    split
    split
    · exact Nat.le_refl 2
    · exact Nat.le_succ 2

theorem length_points_of_mem {direction : Direction} {boxes : List (ShapeBox α)} {all earlier edges : List Edge}
    {connector : Connector α} (mem : connector ∈ routeFrom direction boxes all earlier edges) :
    2 ≤ connector.points.length := by
  induction edges generalizing earlier with
  | nil => cases mem
  | cons edge edges ih =>
    rw [routeFrom] at mem
    rcases List.mem_cons.1 mem with rfl | mem
    · exact length_points _ _ _ _ _ _
    · exact ih mem

end Connector

namespace Layout

/-- Nothing that a layout looks up is missing, and it takes no maximum of nothing. -/
structure Complete (graph : Graph) (metrics : Metrics α) : Prop where
  ranked : ∀ id ∈ graph.ids, (graph.rankOrder.lookup id).isSome = true
  rows : Placement.rows graph metrics ≠ [] ∧ ∀ row ∈ Placement.rows graph metrics, row ≠ []
  starts : ∀ depths : List α, (Placement.rowStarts graph.direction metrics depths).length = depths.length
  boxed : ∀ id ∈ graph.ids, ((Placement.boxes graph metrics).find? (·.id == id)).isSome = true
  ends : ∀ edge ∈ graph.edges, edge.source ∈ graph.ids ∧ edge.target ∈ graph.ids
  members : ∀ subgraph ∈ graph.subgraphs, ∀ id ∈ subgraph.members, id ∈ graph.ids
  children : ∀ subgraph ∈ graph.subgraphs, ∀ id ∈ subgraph.children, (graph.subgraph? id).isSome = true
  points : ∀ connector ∈ Connector.ofGraph graph (Placement.boxes graph metrics), 2 ≤ connector.points.length

theorem complete (wellFormed : graph.WellFormed) (grouped : graph.Grouped) (some : graph.nodes ≠ [])
    (metrics : Metrics α) : Complete graph metrics := by
  constructor
  · intro id mem
    obtain ⟨entry, isEntry, rfl⟩ := List.mem_map.1 ((graph.mem_rankOrder id).2 mem)
    exact List.lookup_isSome_iff.2 ⟨entry, isEntry, beq_self_eq_true _⟩
  · refine ⟨?_, fun row mem => Placement.rows_ne_nil wellFormed.1 some mem⟩
    rw [Placement.rows_eq, Ne, List.map_eq_nil_iff, List.range_eq_nil]
    omega
  · exact Placement.length_rowStarts graph.direction metrics
  · intro id mem
    have boxed : id ∈ (Placement.boxes graph metrics).map ShapeBox.id := Placement.mem_ids_boxes.2 mem
    obtain ⟨box, isBox, rfl⟩ := List.mem_map.1 boxed
    exact List.find?_isSome.2 ⟨box, isBox, beq_self_eq_true _⟩
  · exact wellFormed.2
  · exact grouped.members
  · intro subgraph mem id isChild
    obtain ⟨front, behind, split⟩ := List.append_of_mem mem
    obtain ⟨child, -, found⟩ := Graph.child_behind grouped split isChild
    rw [found]
    rfl
  · intro connector mem
    exact Connector.length_points_of_mem mem

end Layout
end Flowchart
