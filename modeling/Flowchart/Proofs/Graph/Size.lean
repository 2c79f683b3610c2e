import Flowchart.Proofs.Diagram.SourceOrder
import Flowchart.Proofs.Graph.Texts
import Flowchart.Proofs.Token.Coverage
import Mathlib.Algebra.Order.BigOperators.Group.List
import Mathlib.Algebra.Order.Group.Nat
import Mathlib.Data.List.Perm.Subperm

/-!
How large the graph of a source can be. Nodes and subgraphs come from tokens that start at different places of the
source, no chain has more edges than nodes, and every label is a piece of the source.
-/
namespace Flowchart

variable {source : String} {diagram : Diagram} {graph : Graph}

/-- None of the counts and lengths that a layout depends on is larger than a number. -/
structure Graph.Small (n : Nat) (graph : Graph) : Prop where
  nodes : graph.nodes.length ≤ n
  edges : graph.edges.length ≤ n
  subgraphs : graph.subgraphs.length ≤ n
  labels : ∀ node ∈ graph.nodes, node.label.length ≤ n
  edgeLabels : ∀ edge ∈ graph.edges, ∀ label ∈ edge.label, label.length ≤ n

/-- Places one behind the other are no more than there are. -/
theorem length_le_of_ordered {places : List Int} {n : Nat} (ordered : places.Pairwise (· < ·))
    (within : ∀ place ∈ places, 0 ≤ place ∧ place ≤ n) : places.length ≤ n + 1 := by
  have distinct : (places.map Int.toNat).Nodup := by
    refine List.pairwise_map.2 (ordered.imp_of_mem fun isFirst isSecond less => ?_)
    have first := within _ isFirst
    have second := within _ isSecond
    omega
  have among : places.map Int.toNat ⊆ List.range (n + 1) := by
    intro place mem
    obtain ⟨place, isPlace, rfl⟩ := List.mem_map.1 mem
    have bounds := within place isPlace
    exact List.mem_range.2 (by omega)
  have count := (List.subperm_of_subset distinct among).length_le
  rwa [List.length_map, List.length_range] at count

/-- The text of a token is a piece of its source. -/
theorem Token.length_text_of_scan {tokens : List Token} (scanned : scan source = .ok tokens) :
    ∀ t ∈ tokens, t.text.length ≤ source.length := by
  intro t mem
  have accounts := accounts_of_scan source
  rw [scanned] at accounts
  rw [← String.length_toList, ← String.length_toList]
  by_cases isLabel : t.kind = .label
  · obtain ⟨before, after, split⟩ := List.append_of_mem mem
    obtain ⟨_, _, _, _, -, -, front, inside, back, whole, enclosed⟩ := accounts.labels before t after split isLabel
    obtain ⟨lead, left, right, isInside, -⟩ := enclosed.text
    rw [whole, isInside]
    simp only [List.length_append]
    omega
  · obtain ⟨front, back, whole, -⟩ := accounts.verbatim t mem isLabel
    rw [whole]
    simp only [List.length_append]
    omega

namespace Diagram

theorem length_constructs (diagram : Diagram) :
    diagram.constructs.length = diagram.refs.length + diagram.blocks.length := by
  rw [← diagram.map_mentions, List.length_map, ← diagram.filterMap_mention?, ← diagram.filterMap_block?,
    ← diagram.filterMap_events]
  induction diagram.events with
  | nil => rfl
  | cons event events ih =>
    cases event <;>
      simp only [List.filterMap_cons, Construct.ofEvent?, Event.mention?, Event.block?, List.length_cons] <;> omega

theorem length_edges (diagram : Diagram) : diagram.edges.length ≤ diagram.refs.length := by
  have each (statement : Statement) : statement.edges.length ≤ statement.refs.length := by
    cases statement with
    | node | subgraph => exact Nat.zero_le _
    | chain nodes links span =>
      rw [Statement.edges_chain, Link.edges, List.length_map, List.length_zip, List.length_zip]
      exact (Nat.min_le_left _ _).trans (Nat.min_le_left _ _)
  rw [edges, refs, List.length_flatMap, List.length_flatMap]
  exact List.sum_le_sum fun entry _ => each entry.2

theorem length_constructs_of_ofSource (read : ofSource source = .ok diagram) :
    diagram.constructs.length ≤ source.length + 1 := by
  obtain ⟨tokens, scanned, parsed⟩ := tokens_of_ofSource read
  have document := document_of_ofTokens (Token.stream_of_scan scanned) parsed
  have accounts := Token.accounts_of_scan source
  rw [scanned] at accounts
  have ordered := List.pairwise_map.1 (constructs_ordered read)
  rw [← List.length_map fun construct : Construct => construct.start.offset]
  refine length_le_of_ordered (List.pairwise_map.2 ordered) ?_
  intro place mem
  obtain ⟨construct, isConstruct, rfl⟩ := List.mem_map.1 mem
  obtain ⟨t, isStart, starts⟩ := List.mem_map.1 ((Grammar.starts_of_document document).subset
    (List.mem_map_of_mem isConstruct))
  obtain ⟨front, isFront, place⟩ := accounts.placed t (List.mem_filter.1 isStart).1
  have size := isFront.length_le
  rw [String.length_toList] at size
  rw [← starts, place, Position.behind]
  exact ⟨Int.natCast_nonneg _, Int.ofNat_le.2 size⟩

end Diagram

/-- The graph of a source is not larger than the source. -/
theorem Graph.small_ofSource (read : Diagram.ofSource source = .ok diagram) (built : ofDiagram diagram = .ok graph) :
    graph.Small (source.length + 1) := by
  have count := Diagram.length_constructs_of_ofSource read
  have edges := diagram.length_edges
  rw [diagram.length_constructs] at count
  obtain ⟨tokens, scanned, parsed⟩ := Diagram.tokens_of_ofSource read
  have document := Diagram.document_of_ofTokens (Token.stream_of_scan scanned) parsed
  have short := Token.length_text_of_scan scanned
  have supplied : graph.Supplied (fun _ => True) (fun text => text.length ≤ source.length) :=
    supplied_ofDiagram built (Grammar.supplied_of_document document fun t mem => ⟨short t mem, fun _ => trivial⟩)
  constructor
  · have mentioned : graph.ids ⊆ diagram.refs.map NodeRef.id := by
      intro id mem
      rw [ids_eq_firstIds built] at mem
      exact List.mem_map.2 (mem_firstIds.1 mem)
    have few := (List.subperm_of_subset (wellFormed_ofDiagram built).1 mentioned).length_le
    rw [Graph.ids, List.length_map, List.length_map] at few
    omega
  · obtain ⟨builder, resolves, -, rfl⟩ := resolves_ofDiagram built
    have same : builder.edges = diagram.edges := resolves.edges.trans diagram.filterMap_edge?
    show builder.edges.length ≤ _
    rw [same]
    omega
  · rw [subgraphs_ofDiagram built, Diagram.subgraphs, List.length_map]
    omega
  · exact fun node mem => ((supplied.nodes node mem).2).trans (Nat.le_succ _)
  · exact fun edge mem label isLabel => (supplied.edges edge mem label isLabel).trans (Nat.le_succ _)

end Flowchart
