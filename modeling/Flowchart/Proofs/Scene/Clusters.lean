import Mathlib.Data.List.Induction
import Flowchart.Proofs.Graph.Forest
import Flowchart.Proofs.Scene.Texts

/-!
The clusters of a scene. The visit of the subgraphs lists children first, so that every frame is computed from frames
that are there, and in the end just the subgraphs that hold a node, at whatever depth, have one.
-/
namespace Flowchart

variable {α : Type} [Coordinate α] {graph : Graph} {metrics : Metrics α} {scene : Scene α} {id : String}
  {visited next order : List Subgraph} {subgraph : Subgraph}

/-- What each step of a loop brings about, and no later step undoes, holds of every item in the end. -/
theorem foldlM_reaches {β γ ε : Type} {P : γ → Prop} {R : β → γ → Prop} {step : γ → β → Except ε γ}
    {items : List β}
    (reaches : ∀ item state next, P state → step state item = .ok next →
      P next ∧ R item next ∧ ∀ other, R other state → R other next)
    {state final : γ} (start : P state) (run : items.foldlM step state = .ok final) :
    P final ∧ (∀ item ∈ items, R item final) ∧ ∀ other, R other state → R other final := by
  induction items generalizing state with
  | nil =>
    cases run
    exact ⟨start, nofun, fun _ => id⟩
  | cons item items ih =>
    rw [List.foldlM_cons] at run
    obtain ⟨next, taken, run⟩ := ok_of_bind run
    obtain ⟨holds, reached, kept⟩ := reaches item state next start taken
    obtain ⟨holds, all, keeps⟩ := ih holds run
    refine ⟨holds, ?_, fun other before => keeps other (kept other before)⟩
    intro other mem
    rcases List.mem_cons.1 mem with rfl | mem
    · exact keeps other reached
    · exact all other mem

theorem Subgraph.id_of_find? {subgraphs : List Subgraph} (found : subgraphs.find? (·.id == id) = some subgraph) :
    subgraph.id = id := by
  simpa using List.find?_some found

/-- At the end of a list of children first stands one whose children stand in front of it. -/
theorem nested_reverse_concat : Nested (order ++ [subgraph]).reverse ↔
    (∀ child ∈ subgraph.children, child ∈ order.map Subgraph.id) ∧ Nested order.reverse := by
  rw [List.reverse_append, List.reverse_singleton, List.singleton_append, Nested, List.map_reverse]
  simp only [List.mem_reverse]

namespace Graph

/-- A subgraph holds a node itself, or one that its nesting leads to does. -/
def Populated (graph : Graph) (id : String) : Prop :=
  ∃ inner ∈ graph.subgraphs, Relation.ReflTransGen graph.IsParent id inner.id ∧ inner.members ≠ []

theorem populated_iff (grouped : graph.Grouped) (mem : subgraph ∈ graph.subgraphs) :
    graph.Populated subgraph.id ↔ subgraph.members ≠ [] ∨ ∃ child ∈ subgraph.children, graph.Populated child := by
  constructor
  · rintro ⟨inner, isInner, path, some⟩
    rcases Relation.ReflTransGen.cases_head path with same | ⟨child, isParent, path⟩
    · rw [List.inj_on_of_nodup_map grouped.distinct mem isInner same]
      exact .inl some
    · obtain ⟨outer, isOuter, same, isChild⟩ := isParent
      rw [List.inj_on_of_nodup_map grouped.distinct isOuter mem same] at isChild
      exact .inr ⟨child, isChild, inner, isInner, path, some⟩
  · rintro (some | ⟨child, isChild, inner, isInner, path, some⟩)
    · exact ⟨subgraph, mem, .refl, some⟩
    · exact ⟨inner, isInner, .head ⟨subgraph, mem, rfl, isChild⟩ path, some⟩

/-- A visit comes to its subgraph, but to all of the children before, and it forgets nothing. -/
theorem nested_of_visit (fuel : Nat) (nested : Nested visited.reverse)
    (visits : graph.visit fuel visited subgraph = .ok next) :
    Nested next.reverse ∧ subgraph.id ∈ next.map Subgraph.id ∧
      ∀ other, other ∈ visited.map Subgraph.id → other ∈ next.map Subgraph.id := by
  induction fuel generalizing visited next subgraph with
  | zero =>
    rw [visit] at visits
    split at visits
    · rename_i known
      cases visits
      exact ⟨nested, by simpa using known, fun _ => id⟩
    · cases visits
  | succ fuel ih =>
    rw [visit] at visits
    split at visits
    · rename_i known
      cases visits
      exact ⟨nested, by simpa using known, fun _ => id⟩
    · split at visits
      · cases visits
      · obtain ⟨before, folded, result⟩ := ok_of_bind visits
        cases result
        obtain ⟨nested, children, kept⟩ := foldlM_reaches (P := fun visited => Nested visited.reverse)
          (R := fun child visited => child ∈ visited.map Subgraph.id) (fun id visited next nested taken => by
            split at taken
            · cases taken
            · rename_i child found
              obtain rfl := Subgraph.id_of_find? found
              exact ih nested taken) nested folded
        rw [nested_reverse_concat, List.map_append]
        exact ⟨⟨children, nested⟩, by simp, fun other mem => List.mem_append_left _ (kept other mem)⟩

/-- The order of the visit lists every subgraph, and its children in front of it. -/
theorem nested_of_nestingOrder (ordered : graph.nestingOrder = .ok order) :
    Nested order.reverse ∧ ∀ subgraph ∈ graph.subgraphs, subgraph.id ∈ order.map Subgraph.id := by
  obtain ⟨nested, all, -⟩ := foldlM_reaches (P := fun visited => Nested visited.reverse)
    (R := fun (subgraph : Subgraph) visited => subgraph.id ∈ visited.map Subgraph.id)
    (fun subgraph visited next nested visits =>
      have ⟨nested, reached, kept⟩ := nested_of_visit _ nested visits
      ⟨nested, reached, fun other => kept other.id⟩) (by exact trivial) ordered
  exact ⟨nested, all⟩

end Graph

namespace Cluster

variable {boxes : List (ShapeBox α)}

theorem frame?_isSome {boxes : List (Box α)} : (frame? metrics boxes).isSome = true ↔ boxes ≠ [] := by
  cases boxes <;> simp [frame?]

/-- The frames of the subgraphs of a list. -/
abbrev framesOf (metrics : Metrics α) (boxes : List (ShapeBox α)) (order : List Subgraph) : Frames α :=
  order.foldl (addFrame metrics boxes) []

theorem framesOf_concat (metrics : Metrics α) (boxes : List (ShapeBox α)) (order : List Subgraph)
    (subgraph : Subgraph) : framesOf metrics boxes (order ++ [subgraph]) =
      addFrame metrics boxes (framesOf metrics boxes order) subgraph := by
  rw [framesOf, List.foldl_append]
  rfl

theorem ids_framesOf (metrics : Metrics α) (boxes : List (ShapeBox α)) (order : List Subgraph) :
    (framesOf metrics boxes order).map Prod.fst = order.map Subgraph.id := by
  induction order using List.reverseRecOn with
  | nil => rfl
  | append_singleton order subgraph ih =>
    rw [framesOf_concat, addFrame, List.map_append, ih, List.map_append]
    rfl

theorem isSome_lookup_framesOf :
    ((framesOf metrics boxes order).lookup id).isSome = true ↔ id ∈ order.map Subgraph.id := by
  rw [← ids_framesOf metrics boxes, List.lookup_isSome_iff, List.mem_map]
  exact exists_congr fun entry => and_congr_right fun _ => beq_iff_eq.trans eq_comm

/-- A frame is added around nodes and around the frames of children. -/
theorem isSome_addFrame {frames : Frames α} (fresh : frames.lookup subgraph.id = none) :
    ((addFrame metrics boxes frames subgraph).lookup subgraph.id).join.isSome = true ↔
      subgraph.members ≠ [] ∨ ∃ child ∈ subgraph.children, (frames.lookup child).join.isSome = true := by
  have inner : (subgraph.children.filterMap fun id => (frames.lookup id).join) ≠ [] ↔
      ∃ child ∈ subgraph.children, (frames.lookup child).join.isSome = true := by
    rw [Ne, List.filterMap_eq_nil_iff, not_forall₂]
    simp only [Option.isSome_iff_ne_none, exists_prop, Ne]
  rw [addFrame, List.lookup_append, fresh, Option.none_or, List.lookup_cons, beq_self_eq_true, ← inner]
  show (frame? metrics _).isSome = true ↔ _
  rw [frame?_isSome, Ne, List.append_eq_nil_iff, List.map_eq_nil_iff, not_and_or]

/-- In a list of children first, a subgraph has a frame just if there is a node in it. -/
theorem isSome_framesOf (grouped : graph.Grouped) (subset : order ⊆ graph.subgraphs) (nested : Nested order.reverse)
    (known : id ∈ order.map Subgraph.id) :
    ((framesOf metrics boxes order).lookup id).join.isSome = true ↔ graph.Populated id := by
  induction order using List.reverseRecOn generalizing id with
  | nil => cases known
  | append_singleton order subgraph ih =>
    obtain ⟨children, nested⟩ := nested_reverse_concat.1 nested
    have isSubgraph : subgraph ∈ graph.subgraphs := subset (List.mem_append_right _ List.mem_cons_self)
    have ih (id : String) (known : id ∈ order.map Subgraph.id) :=
      ih (fun _ mem => subset (List.mem_append_left _ mem)) nested known
    rw [framesOf_concat]
    by_cases before : id ∈ order.map Subgraph.id
    · -- The first frame of an id is the one that counts, so a later visit changes nothing.
      rw [addFrame, List.lookup_append, Option.or_of_isSome (isSome_lookup_framesOf.2 before)]
      exact ih id before
    · obtain rfl : id = subgraph.id := by simpa [before] using known
      have fresh : (framesOf metrics boxes order).lookup subgraph.id = none :=
        Option.not_isSome_iff_eq_none.1 fun framed => before (isSome_lookup_framesOf.1 framed)
      rw [isSome_addFrame fresh, Graph.populated_iff grouped isSubgraph]
      refine or_congr_right (exists_congr fun child => and_congr_right fun isChild => ?_)
      exact ih child (children child isChild)

open Classical in
/-- The clusters are those of the subgraphs that hold a node, in the order of the graph and with their titles. -/
theorem clusters_ofGraph (grouped : graph.Grouped) (metrics : Metrics α) (boxes : List (ShapeBox α))
    (ordered : graph.nestingOrder = .ok order) :
    (ofGraph graph metrics boxes order).map (fun cluster => (cluster.id, cluster.title)) =
      (graph.subgraphs.filter fun subgraph => graph.Populated subgraph.id).map fun subgraph =>
        (subgraph.id, some (titleOf subgraph)) := by
  have subset := Graph.subset_of_nestingOrder ordered
  obtain ⟨nested, all⟩ := Graph.nested_of_nestingOrder ordered
  rw [ofGraph, List.map_filterMap, ← List.filterMap_eq_filter, List.map_filterMap]
  refine List.filterMap_congr ?_
  intro subgraph mem
  have framed : ((framesOf metrics boxes order).lookup subgraph.id).join.isSome = true ↔
      graph.Populated subgraph.id := isSome_framesOf grouped subset nested (all subgraph mem)
  have itself : (order.find? (·.id == subgraph.id)).getD subgraph = subgraph := by
    cases found : order.find? (·.id == subgraph.id) with
    | none => rfl
    | some other =>
      have isOther := subset (List.mem_of_find?_eq_some found)
      exact List.inj_on_of_nodup_map grouped.distinct isOther mem (Subgraph.id_of_find? found)
  cases isFrame : ((framesOf metrics boxes order).lookup subgraph.id).join with
  | none =>
    rw [isFrame] at framed
    simp [itself, Option.guard, ← framed]
  | some box =>
    rw [isFrame] at framed
    simp [itself, Option.guard, ← framed]

end Cluster
end Flowchart
