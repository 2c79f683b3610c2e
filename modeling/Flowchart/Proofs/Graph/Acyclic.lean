import Mathlib.Data.Set.Finite.List
import Mathlib.Order.WellFounded
import Flowchart.Proofs.Graph.Cycles

/-!
Graphs that no warning about a cycle is given for. A way back along their edges comes to no node twice, so it ends at a
root: the spread from the roots ranks every node, nothing is left to start a spread of its own, and no edge leads
further down than by one rank.
-/
namespace Flowchart.Graph

/-- The ranks of a graph are the depths of its nodes below the roots. -/
structure RankedFromRoots (graph : Graph) : Prop where
  fromRoot : ∀ id ∈ graph.ids, graph.FromRoot id
  /-- No rank is found behind the spread from the roots. -/
  order : graph.rankOrder = graph.growth graph.sources graph.inner
  listed : graph.ranks = graph.ids.map fun id => (id, graph.rank id)
  depth : ∀ id ∈ graph.ids, graph.IsDepth graph.IsRoot id (graph.rank id)
  descent : ∀ edge ∈ graph.edges, graph.rank edge.target ≤ graph.rank edge.source + 1

variable {graph : Graph} {id : String}

/-- Without a cycle there is no endless way back among finitely many nodes. -/
theorem wellFounded_leads (acyclic : ¬graph.HasCycle) :
    WellFounded fun before id : {id // id ∈ graph.ids} => graph.Leads before id := by
  let Behind (before id : {id // id ∈ graph.ids}) : Prop := Relation.TransGen graph.Leads before id
  have : Finite {id // id ∈ graph.ids} := graph.ids.finite_toSet
  have : IsTrans _ Behind := ⟨fun _ _ _ => Relation.TransGen.trans⟩
  have : Std.Irrefl Behind := ⟨fun id cycle => acyclic ⟨id, cycle⟩⟩
  exact Subrelation.wf .single (Finite.wellFounded_of_trans_of_irrefl Behind)

/-- Another node leads to a node that is no root. -/
theorem exists_leads (wellFormed : graph.WellFormed) (isNode : id ∈ graph.ids) (notRoot : ¬graph.IsRoot id) :
    ∃ before ∈ graph.ids, graph.Leads before id := by
  simp only [IsRoot, isNode, true_and, not_forall, exists_prop] at notRoot
  obtain ⟨_, ⟨edge, isEdge, rfl, rfl⟩, differ⟩ := notRoot
  exact ⟨edge.source, (wellFormed.2 edge isEdge).1, differ, edge, isEdge, rfl, rfl⟩

theorem FromRoot.step {next : String} (fromRoot : graph.FromRoot id) (joined : graph.Joined id next) :
    graph.FromRoot next := by
  obtain ⟨root, isRoot, length, walk⟩ := fromRoot
  exact ⟨root, isRoot, length + 1, .step walk joined⟩

theorem fromRoot_of_acyclic (wellFormed : graph.WellFormed) (acyclic : ¬graph.HasCycle) (isNode : id ∈ graph.ids) :
    graph.FromRoot id := by
  have all (node : {id // id ∈ graph.ids}) : graph.FromRoot node := by
    induction node using (wellFounded_leads acyclic).induction with
    | _ node ih =>
      by_cases isRoot : graph.IsRoot node
      · exact ⟨node, isRoot, 0, .refl⟩
      · obtain ⟨before, isNode, leads⟩ := exists_leads wellFormed node.2 isRoot
        exact (ih ⟨before, isNode⟩ leads).step leads.2
  exact all ⟨id, isNode⟩

/-- A walk from a root goes on along an edge, so the end of an edge is at most one rank below its start. -/
theorem IsDepth.descent {next : String} {rank below : Nat} (depth : graph.IsDepth graph.IsRoot id rank)
    (joined : graph.Joined id next) (isBelow : graph.IsDepth graph.IsRoot next below) : below ≤ rank + 1 := by
  obtain ⟨⟨root, isRoot, walk⟩, -⟩ := depth
  exact isBelow.2 ⟨root, isRoot, .step walk joined⟩

theorem rankedFromRoots (wellFormed : graph.WellFormed) (all : ∀ id ∈ graph.ids, graph.FromRoot id) :
    graph.RankedFromRoots := by
  have enclosed : graph.enclosed = [] := by
    rw [List.eq_nil_iff_forall_not_mem]
    intro id mem
    obtain ⟨isNode, unreached⟩ := (mem_enclosed wellFormed).1 mem
    exact unreached (all id isNode)
  have depth (id : String) (isNode : id ∈ graph.ids) : graph.IsDepth graph.IsRoot id (graph.rank id) :=
    isDepth_of_fromRoot wellFormed ((rank_eq_iff wellFormed.1 isNode).1 rfl) (all id isNode)
  constructor
  case fromRoot => exact all
  case order => rw [rankOrder_eq, enclosed, rankCycles, List.append_nil]
  case listed => rfl
  case depth => exact depth
  case descent =>
    intro edge isEdge
    obtain ⟨source, target⟩ := wellFormed.2 edge isEdge
    exact (depth _ source).descent ⟨edge, isEdge, rfl, rfl⟩ (depth _ target)

/-- Where the advice tells of no cycle, the layout ranks all nodes from the roots. -/
theorem rankedFromRoots_of_warnings (wellFormed : graph.WellFormed)
    (quiet : ∀ warning ∈ graph.warnings, ¬warning.IsAboutCycle) : graph.RankedFromRoots := by
  have notFound : graph.cycle? = none := by
    rw [Option.eq_none_iff_forall_not_mem]
    intro path isFound
    exact quiet _ (mem_cycleWarnings.2 isFound) (Warning.isAboutCycle_iff.2 ⟨path, rfl⟩)
  have acyclic := cycle?_eq_none wellFormed notFound
  exact rankedFromRoots wellFormed fun id => fromRoot_of_acyclic wellFormed acyclic

/-- A road with a shortcut to its end, so that the last edge of the road leads upwards; the root has a loop and is named
last. -/
def shortcut : Graph :=
  { nodes := [⟨"d", "d", .rectangle⟩, ⟨"c", "c", .circle⟩, ⟨"b", "b", .rectangle⟩, ⟨"a", "a", .rounded⟩]
    edges := [{ source := "a", target := "a" }, { source := "a", target := "b" }, { source := "b", target := "c" },
      { source := "c", target := "d" }, { source := "a", target := "d" }] }

theorem rankedFromRoots_of_warnings_shortcut : shortcut.WellFormed ∧
    (∀ warning ∈ shortcut.warnings, ¬warning.IsAboutCycle) ∧ shortcut.RankedFromRoots := by
  have wellFormed : shortcut.WellFormed := ⟨by decide, by decide⟩
  have silent : shortcut.warnings = [] := by cbv
  have quiet : ∀ warning ∈ shortcut.warnings, ¬warning.IsAboutCycle := by
    rw [silent]
    exact List.forall_mem_nil _
  exact ⟨wellFormed, quiet, rankedFromRoots_of_warnings wellFormed quiet⟩

end Flowchart.Graph
