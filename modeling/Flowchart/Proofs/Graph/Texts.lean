import Flowchart.Proofs.Diagram.Texts
import Flowchart.Proofs.Graph.Forest

/-!
Where the texts of a graph come from: its ids, labels and titles are those of its diagram, and a node without a label
shows its id.
-/
namespace Flowchart

variable {isId isText : String → Prop} {diagram : Diagram} {graph : Graph}

namespace Graph

/-- The ids, labels and titles of a graph may be used as such. -/
structure Supplied (isId isText : String → Prop) (graph : Graph) : Prop where
  nodes : ∀ node ∈ graph.nodes, isId node.id ∧ isText node.label
  edges : ∀ edge ∈ graph.edges, ∀ label ∈ edge.label, isText label
  subgraphs : ∀ subgraph ∈ graph.subgraphs,
    isId subgraph.id ∧ isText subgraph.id ∧ ∀ title ∈ subgraph.title, isText title

theorem supplied_nodes (supplied : ∀ ref ∈ diagram.refs, ref.Supplied isId isText)
    (built : ofDiagram diagram = .ok graph) : ∀ node ∈ graph.nodes, isId node.id ∧ isText node.label := by
  intro node mem
  have listed : node.id ∈ firstIds diagram.refs := ids_eq_firstIds built ▸ List.mem_map_of_mem mem
  obtain ⟨ref, isRef, same⟩ := mem_firstIds.1 listed
  obtain ⟨word, text, -⟩ := supplied ref isRef
  rw [same] at word text
  refine ⟨word, ?_⟩
  obtain ⟨builder, resolves, refs, rfl⟩ := resolves_ofDiagram built
  obtain ⟨known, isKnown, rfl⟩ := List.mem_map.1 mem
  have label := (refs ▸ resolves.known known isKnown).label
  cases isLabel : known.label with
  | none => simpa [Known.node, isLabel] using text
  | some label' =>
    rw [isLabel] at label
    obtain ⟨other, isOther, given⟩ := List.mem_filterMap.1 (List.mem_of_getLast? label.symm)
    have declared := (supplied other (List.mem_filter.1 isOther).1).2.2 label' given
    simpa [Known.node, isLabel] using declared

theorem supplied_ofDiagram (built : ofDiagram diagram = .ok graph)
    (supplied : ∀ entry ∈ diagram.outline, entry.2.Supplied isId isText) : graph.Supplied isId isText := by
  constructor
  · refine supplied_nodes (fun ref mem => ?_) built
    obtain ⟨entry, isEntry, isRef⟩ := List.mem_flatMap.1 mem
    exact (supplied entry isEntry).refs ref isRef
  · obtain ⟨builder, resolves, -, rfl⟩ := resolves_ofDiagram built
    intro edge mem label isLabel
    obtain ⟨entry, isEntry, isEdge⟩ := List.mem_flatMap.1 ((resolves.edges.trans diagram.filterMap_edge?) ▸ mem)
    obtain ⟨⟨link, place⟩, isLink, joins⟩ := List.mem_filterMap.1 isEdge
    rw [Statement.edgeAt?] at joins
    split at joins
    · cases joins
      have linked : link ∈ entry.2.links := List.fst_mem_of_mem_zipIdx isLink
      exact (supplied entry isEntry).links link linked label isLabel
    · cases joins
  · intro subgraph mem
    rw [subgraphs_ofDiagram built] at mem
    obtain ⟨block, isBlock, rfl⟩ := List.mem_map.1 mem
    obtain ⟨entry, isEntry, isHead⟩ := List.mem_flatMap.1 isBlock
    obtain ⟨head, heads, rfl⟩ := List.mem_map.1 isHead
    exact (supplied entry isEntry).heads head heads

end Graph

end Flowchart
