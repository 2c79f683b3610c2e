import Flowchart.Graph.Lint
import Flowchart.Proofs.Number.Rational
import Flowchart.Proofs.Scene.Depiction

/-!
Subgraphs that are not drawn. The warning about an empty subgraph is about one that holds nothing at all, and such a
subgraph is never drawn. One that holds only further empty ones is not drawn either, and then the warning is about one
of these.
-/
namespace Flowchart

variable {α : Type} [Coordinate α] {graph : Graph} {diagram : Diagram} {front behind : List Subgraph}
  {subgraph : Subgraph} {id : String}

namespace Warning

/-- No other warning reads like one about an empty subgraph. -/
theorem eq_of_message {warning : Warning} (same : warning.message = (emptySubgraph id).message) :
    warning = .emptySubgraph id := by
  -- They differ in their first character.
  rw [message.eq_def, message.eq_def] at same
  have chars := congrArg String.toList same
  cases warning with
  | emptySubgraph other => simpa [toString, String.toList_inj] using chars
  | _ => simp [toString] at chars

end Warning

namespace Graph

/-- One of the warnings says that the subgraph is empty. -/
def WarnsEmpty (graph : Graph) (id : String) : Prop :=
  "Subgraph '" ++ id ++ "' is empty and will not be drawn." ∈ graph.warnings.map Warning.message

theorem warnsEmpty_iff_mem : graph.WarnsEmpty id ↔ Warning.emptySubgraph id ∈ graph.warnings := by
  have text : "Subgraph '" ++ id ++ "' is empty and will not be drawn." = (Warning.emptySubgraph id).message := rfl
  rw [WarnsEmpty, text]
  constructor
  · intro mem
    obtain ⟨warning, isWarning, same⟩ := List.mem_map.1 mem
    exact Warning.eq_of_message same ▸ isWarning
  · exact fun mem => List.mem_map_of_mem mem

theorem not_mem_duplicateWarnings (earlier edges : List Edge) :
    Warning.emptySubgraph id ∉ duplicateWarnings earlier edges := by
  induction edges generalizing earlier with
  | nil => exact List.not_mem_nil
  | cons edge edges ih =>
    rw [duplicateWarnings, List.mem_append, not_or]
    refine ⟨?_, ih _⟩
    split <;> simp

theorem mem_warnings : Warning.emptySubgraph id ∈ graph.warnings ↔
    ∃ subgraph ∈ graph.subgraphs, subgraph.id = id ∧ subgraph.members = [] ∧ subgraph.children = [] := by
  have isolated : Warning.emptySubgraph id ∉ graph.isolatedWarnings := by
    rw [isolatedWarnings]
    split <;> simp
  have cycle : Warning.emptySubgraph id ∉ (graph.cycle?.map Warning.cycle).toList := by
    cases graph.cycle? <;> simp
  simp only [warnings, List.mem_append, isolated, not_mem_duplicateWarnings, cycle, false_or, or_false, emptyWarnings,
    List.mem_map, List.mem_filter, Bool.and_eq_true, decide_eq_true_eq, Warning.emptySubgraph.injEq]
  refine exists_congr fun subgraph => ?_
  constructor
  · rintro ⟨⟨mem, members, children⟩, isId⟩
    exact ⟨mem, isId, members, children⟩
  · rintro ⟨mem, isId, members, children⟩
    exact ⟨⟨mem, members, children⟩, isId⟩

theorem warnsEmpty_iff (grouped : graph.Grouped) (mem : subgraph ∈ graph.subgraphs) :
    graph.WarnsEmpty subgraph.id ↔ subgraph.members = [] ∧ subgraph.children = [] := by
  rw [warnsEmpty_iff_mem, mem_warnings]
  constructor
  · rintro ⟨other, isOther, same, empty⟩
    rwa [List.inj_on_of_nodup_map grouped.distinct mem isOther same.symm]
  · exact fun empty => ⟨subgraph, mem, rfl, empty⟩

/-- The nesting of a subgraph ends: each child stands behind the subgraph that lists it. -/
theorem exists_childless (grouped : graph.Grouped) (split : graph.subgraphs = front ++ subgraph :: behind) :
    ∃ inner ∈ graph.subgraphs, Relation.ReflTransGen graph.IsParent subgraph.id inner.id ∧ inner.children = [] := by
  induction length : behind.length using Nat.strong_induction_on generalizing front subgraph behind with
  | _ depth ih =>
    subst length
    have mem : subgraph ∈ graph.subgraphs := by simp [split]
    cases children : subgraph.children with
    | nil => exact ⟨subgraph, mem, .refl, children⟩
    | cons first others =>
      have isChild : first ∈ subgraph.children := by simp [children]
      obtain ⟨child, isBehind, found⟩ := child_behind grouped split isChild
      obtain ⟨between, rest, rfl⟩ := List.append_of_mem isBehind
      have deeper : graph.subgraphs = (front ++ subgraph :: between) ++ child :: rest := by
        rw [split, List.append_assoc, List.cons_append]
      obtain ⟨inner, isInner, path, childless⟩ := ih _ (by simp; omega) deeper rfl
      have isParent : graph.IsParent subgraph.id child.id := by
        refine ⟨subgraph, mem, rfl, ?_⟩
        rwa [Subgraph.id_of_find? found]
      exact ⟨inner, isInner, .head isParent path, childless⟩

theorem exists_warnsEmpty (grouped : graph.Grouped) (mem : subgraph ∈ graph.subgraphs)
    (empty : ¬graph.Populated subgraph.id) :
    ∃ inner ∈ graph.subgraphs, Relation.ReflTransGen graph.IsParent subgraph.id inner.id ∧
      graph.WarnsEmpty inner.id := by
  obtain ⟨front, behind, split⟩ := List.append_of_mem mem
  obtain ⟨inner, isInner, path, childless⟩ := exists_childless grouped split
  have memberless : inner.members = [] := by_contra fun some => empty ⟨inner, isInner, path, some⟩
  exact ⟨inner, isInner, path, (warnsEmpty_iff grouped isInner).2 ⟨memberless, childless⟩⟩

end Graph

/-- A node beside a block that holds nothing but another block, without nodes. -/
def Diagram.hollow : Diagram :=
  ⟨.TD, default,
    [.node ⟨"A", none, none, default⟩ default, .subgraph "s" none [.subgraph "t" none [] default] default]⟩

def Graph.hollow : Graph :=
  ⟨.TD, [⟨"A", "A", .rectangle⟩], [], [⟨"s", none, [], ["t"]⟩, ⟨"t", none, [], []⟩]⟩

theorem Graph.ofDiagram_hollow : ofDiagram .hollow = .ok hollow :=
  rfl

namespace Scene

variable {scene : Scene α} {metrics : Metrics α}

theorem mem_ids_clusters (grouped : graph.Grouped) (laid : ofGraph graph metrics = .ok scene)
    (mem : subgraph ∈ graph.subgraphs) :
    subgraph.id ∈ scene.clusters.map Cluster.id ↔ graph.Populated subgraph.id := by
  rw [clusters_of_ofGraph grouped laid, List.mem_map]
  constructor
  · rintro ⟨other, isOther, same⟩
    rw [← same]
    simpa using (List.mem_filter.1 isOther).2
  · exact fun populated => ⟨subgraph, List.mem_filter.2 ⟨mem, by simpa using populated⟩, rfl⟩

/-- Just the subgraphs without a cluster that list no children are warned about, and no subgraph without a cluster
goes without a warning in its nesting. -/
theorem undrawn_warned (built : Graph.ofDiagram diagram = .ok graph) (some : graph.nodes ≠ []) (metrics : Metrics α) :
    ∃ scene, ofGraph graph metrics = .ok scene ∧ ∀ subgraph ∈ graph.subgraphs,
      (graph.WarnsEmpty subgraph.id ↔
        subgraph.id ∉ scene.clusters.map Cluster.id ∧ subgraph.children = []) ∧
      (subgraph.id ∉ scene.clusters.map Cluster.id →
        ∃ inner ∈ graph.subgraphs, Relation.ReflTransGen graph.IsParent subgraph.id inner.id ∧
          graph.WarnsEmpty inner.id) := by
  have grouped := Graph.grouped_ofDiagram built
  obtain ⟨scene, laid⟩ := ofGraph_ok (Graph.wellFormed_ofDiagram built) grouped some metrics
  refine ⟨scene, laid, ?_⟩
  intro subgraph mem
  rw [mem_ids_clusters grouped laid mem]
  refine ⟨?_, Graph.exists_warnsEmpty grouped mem⟩
  rw [Graph.warnsEmpty_iff grouped mem, Graph.populated_iff grouped mem]
  constructor
  · rintro ⟨members, children⟩
    simp [members, children]
  · rintro ⟨empty, children⟩
    exact ⟨by_contra fun some => empty (.inl some), children⟩

theorem undrawn_warned_hollow : Graph.ofDiagram .hollow = .ok .hollow ∧ Graph.hollow.nodes ≠ [] ∧
    ∃ scene, ofGraph .hollow (Metrics.standard : Metrics Rat) = .ok scene ∧
      ∀ subgraph ∈ Graph.hollow.subgraphs,
        (Graph.hollow.WarnsEmpty subgraph.id ↔
          subgraph.id ∉ scene.clusters.map Cluster.id ∧ subgraph.children = []) ∧
        (subgraph.id ∉ scene.clusters.map Cluster.id →
          ∃ inner ∈ Graph.hollow.subgraphs, Relation.ReflTransGen Graph.hollow.IsParent subgraph.id inner.id ∧
            Graph.hollow.WarnsEmpty inner.id) :=
  ⟨Graph.ofDiagram_hollow, List.cons_ne_nil _ _,
    undrawn_warned Graph.ofDiagram_hollow (List.cons_ne_nil _ _) Metrics.standard⟩

/-- Of two blocks without nodes, one in the other, neither is drawn, but the outer one is not warned about. -/
theorem not_warned_of_undrawn : Graph.ofDiagram .hollow = .ok .hollow ∧ Graph.hollow.nodes ≠ [] ∧
    ∃ scene, ofGraph .hollow (Metrics.standard : Metrics Rat) = .ok scene ∧
      "s" ∈ Graph.hollow.subgraphs.map Subgraph.id ∧ "s" ∉ scene.clusters.map Cluster.id ∧
      ¬Graph.hollow.WarnsEmpty "s" := by
  have built := Graph.ofDiagram_hollow
  have some : Graph.hollow.nodes ≠ [] := List.cons_ne_nil _ _
  have grouped := Graph.grouped_ofDiagram built
  obtain ⟨scene, laid⟩ := ofGraph_ok (Graph.wellFormed_ofDiagram built) grouped some (Metrics.standard : Metrics Rat)
  have outer : ⟨"s", none, [], ["t"]⟩ ∈ Graph.hollow.subgraphs := List.mem_cons_self
  refine ⟨built, some, scene, laid, List.mem_map_of_mem outer, ?_, ?_⟩
  · intro drawn
    obtain ⟨inner, isInner, -, held⟩ := (mem_ids_clusters grouped laid outer).1 drawn
    have empty : ∀ subgraph ∈ Graph.hollow.subgraphs, subgraph.members = [] := by decide
    exact held (empty inner isInner)
  · intro warned
    exact List.cons_ne_nil _ _ ((Graph.warnsEmpty_iff grouped outer).1 warned).2

end Scene
end Flowchart
