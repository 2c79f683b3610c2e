import Flowchart.Proofs.Diagram.Outline
import Flowchart.Proofs.Graph.Soundness

/-!
What the nodes and the edges of a graph are, said of the whole document at once: the ids in the order of
their first mention, a shape and a label as the declarations give them, and an edge for each link. The
builder comes to the same by taking up one event after another.
-/
namespace Flowchart

open Construct

/-- The references that declare a node, in the order of the document. -/
def declarations (refs : List NodeRef) (id : String) : List NodeRef :=
  refs.filter fun ref => ref.id == id && ref.shape.isSome

/-- The ids of the nodes that are mentioned, each at its first mention. -/
def firstIds (refs : List NodeRef) : List String :=
  (refs.map NodeRef.id).eraseDups

/-- A node is drawn as its declarations say, wherever they stand. The last label that they give counts; a
declaration that was read always gives one. -/
structure Node.Resolves (refs : List NodeRef) (node : Node) : Prop where
  shape : ∀ ref ∈ declarations refs node.id, ref.shape = some node.shape
  label : node.label = ((declarations refs node.id).filterMap NodeRef.label).getLast?.getD node.id
  last : ∀ ref, (declarations refs node.id).getLast? = some ref →
    ∀ label, ref.label = some label → node.label = label
  undeclared : declarations refs node.id = [] → node.shape = .rectangle ∧ node.label = node.id

/-- The nodes and edges of a graph are those that the outline of a diagram shows. -/
structure Graph.Describes (diagram : Diagram) (graph : Graph) : Prop where
  ids : graph.ids = firstIds diagram.refs
  nodes : ∀ node ∈ graph.nodes, node.Resolves diagram.refs
  edges : graph.edges = diagram.edges
  looks : (∀ entry ∈ diagram.outline, entry.2.IsLinked) →
    (graph.edges.map fun edge => (edge.label, edge.style, edge.head)) =
      diagram.links.map fun link => (link.label, link.style, link.head)
  ends : ∀ edge ∈ graph.edges, edge.source ∈ graph.ids ∧ edge.target ∈ graph.ids

variable {refs : List NodeRef} {ref : NodeRef} {id : String} {cs : List Construct}

theorem declarations_append (refs : List NodeRef) (ref : NodeRef) (id : String) :
    declarations (refs ++ [ref]) id =
      declarations refs id ++ if ref.id = id ∧ ref.shape.isSome then [ref] else [] := by
  rw [declarations, List.filter_append, List.filter_cons, List.filter_nil]
  simp [declarations]

theorem declarations_other (other : ref.id ≠ id) : declarations (refs ++ [ref]) id = declarations refs id := by
  simp [declarations_append, other]

theorem mem_firstIds : id ∈ firstIds refs ↔ ∃ ref ∈ refs, ref.id = id := by
  rw [firstIds, List.mem_eraseDups, List.mem_map]

theorem firstIds_append (refs : List NodeRef) (ref : NodeRef) :
    firstIds (refs ++ [ref]) =
      if ref.id ∈ firstIds refs then firstIds refs else firstIds refs ++ [ref.id] := by
  have whole : firstIds (refs ++ [ref]) =
      firstIds refs ++ ([ref.id].removeAll (refs.map NodeRef.id)).eraseDups := by
    rw [firstIds, List.map_append, List.eraseDups_append]
    rfl
  rw [whole]
  by_cases mem : ref.id ∈ firstIds refs
  · have known := mem_firstIds.1 mem
    rw [if_pos mem]
    simp [List.removeAll, known]
  · have fresh := mt mem_firstIds.2 mem
    rw [if_neg mem]
    simp [List.removeAll, fresh, List.eraseDups_cons]

theorem declarations_eq_nil (fresh : id ∉ firstIds refs) : declarations refs id = [] := by
  refine List.filter_eq_nil_iff.2 ?_
  intro ref mem declares
  simp only [Bool.and_eq_true, beq_iff_eq] at declares
  exact fresh (mem_firstIds.2 ⟨ref, mem, declares.1⟩)

namespace Known

/-- What is known of a node is what the references so far declare. -/
structure Settled (refs : List NodeRef) (known : Known) : Prop where
  shape : ∀ ref ∈ declarations refs known.id, ref.shape = known.declared.map Prod.fst
  undeclared : declarations refs known.id = [] → known.declared = none
  label : known.label = ((declarations refs known.id).filterMap NodeRef.label).getLast?

theorem settled_other {known : Known} (settled : known.Settled refs) (other : ref.id ≠ known.id) :
    known.Settled (refs ++ [ref]) := by
  have same : declarations (refs ++ [ref]) known.id = declarations refs known.id := declarations_other other
  constructor
  · rw [same]
    exact settled.shape
  · rw [same]
    exact settled.undeclared
  · rw [same]
    exact settled.label

theorem settled_declare {known next : Known} (settled : known.Settled refs) (mentioned : ref.id = known.id)
    (accepted : known.declare ref = .ok next) : next.Settled (refs ++ [ref]) := by
  rcases declare_ok accepted with ⟨bare, rfl⟩ | ⟨shape, isShape, agrees, rfl⟩
  · have same : declarations (refs ++ [ref]) next.id = declarations refs next.id := by
      simp [declarations_append, bare]
    constructor
    · rw [same]
      exact settled.shape
    · rw [same]
      exact settled.undeclared
    · rw [same]
      exact settled.label
  · have more : declarations (refs ++ [ref]) known.id = declarations refs known.id ++ [ref] := by
      simp [declarations_append, mentioned, isShape]
    constructor
    · intro other mem
      rw [more] at mem
      rcases List.mem_append.1 mem with before | new
      · have given := settled.shape other before
        cases isDeclared : known.declared with
        | none =>
          have isSome := (List.mem_filter.1 before).2
          simp [given, isDeclared] at isSome
        | some previous =>
          rw [given, isDeclared, Option.map_some, agrees previous.1 previous.2 isDeclared]
          rfl
      · rw [List.mem_singleton.1 new, isShape]
        rfl
    · intro none
      rw [more] at none
      simp at none
    · rw [more, List.filterMap_append, List.getLast?_append, ← settled.label]
      cases isLabel : ref.label <;> simp [isLabel]

theorem resolves_node {known : Known} (settled : known.Settled refs) : known.node.Resolves refs := by
  have label : known.node.label =
      ((declarations refs known.id).filterMap NodeRef.label).getLast?.getD known.id := by
    rw [← settled.label]
    rfl
  constructor
  · intro ref mem
    have given := settled.shape ref mem
    have isSome := (List.mem_filter.1 mem).2
    cases isDeclared : known.declared with
    | none => simp [given, isDeclared] at isSome
    | some previous => simp [given, isDeclared, node]
  · exact label
  · intro ref isLast given isLabel
    rw [label]
    obtain ⟨front, split⟩ := List.getLast?_eq_some_iff.1 isLast
    rw [show declarations refs known.id = front ++ [ref] from split, List.filterMap_append]
    simp [isLabel]
  · intro none
    refine ⟨?_, ?_⟩
    · simp [node, settled.undeclared none]
    · rw [label, show declarations refs known.id = [] from none]
      rfl

end Known

namespace Builder

variable {builder next : Builder} {owner : Option String}

/-- What holds at the start and is kept by every event that is taken up holds at the end of a run. The events
taken up before, what the builder tracks of them and its soundness are at hand in each step. -/
theorem run_induction {P : List Event → Builder → Prop} (start : P [] {})
    (keeps : ∀ {done event builder next}, Tracks builder (done.filterMap ofEvent?) → Sound builder →
      event.Grounded (done.filterMap ofEvent?) → P done builder → builder.step event = .ok next →
      P (done ++ [event]) next)
    {events : List Event} (grounded : Grounded [] events) {final : Builder}
    (accepted : events.foldlM step {} = .ok final) : P events final := by
  have run (events : List Event) : ∀ {done builder}, Tracks builder (done.filterMap ofEvent?) →
      Consistent (done.filterMap ofEvent?) → Sound builder → Grounded (done.filterMap ofEvent?) events →
      P done builder → events.foldlM step builder = .ok final → P (done ++ events) final := by
    induction events with
    | nil =>
      intro done builder _ _ _ _ holds accepted
      cases accepted
      simpa using holds
    | cons event events ih =>
      intro done builder tracks consistent sound grounded holds accepted
      have told : (done ++ [event]).filterMap ofEvent? =
          done.filterMap ofEvent? ++ (ofEvent? event).toList := by
        cases isConstruct : ofEvent? event <;> simp [isConstruct]
      rw [List.foldlM_cons] at accepted
      rcases step_cases tracks consistent event with ⟨error, first, second, c, refused, -⟩ |
        ⟨between, taken, tracked, stillConsistent⟩
      · rw [refused] at accepted
        cases accepted
      · rw [taken] at accepted
        have rest := ih (told ▸ tracked) (told ▸ stillConsistent) (sound_step tracks sound grounded.1 taken)
          (told ▸ grounded.2) (keeps tracks sound grounded.1 holds taken) accepted
        simpa using rest
  exact @run events [] {} tracks_nil .nil sound_nil grounded start accepted

/-- The references that some events mention. -/
def refsOf (events : List Event) : List NodeRef :=
  (events.filterMap Event.mention?).map Prod.snd

/-- The builder has resolved the nodes and edges of some events. -/
structure Resolves (events : List Event) (builder : Builder) : Prop where
  ids : builder.ids = firstIds (refsOf events)
  known : ∀ known ∈ builder.known, known.Settled (refsOf events)
  edges : builder.edges = events.filterMap Event.edge?

variable {events : List Event} {event : Event}

theorem resolves_nil : Resolves [] {} where
  ids := by simp [ids, refsOf, firstIds]
  known := fun _ mem => absurd mem List.not_mem_nil
  edges := rfl

theorem refsOf_mention (events : List Event) (owner : Option String) (ref : NodeRef) :
    refsOf (events ++ [.mention owner ref]) = refsOf events ++ [ref] := by
  simp [refsOf, Event.mention?]

theorem resolves_mention (resolves : Resolves events builder)
    (accepted : builder.mention owner ref = .ok next) :
    Resolves (events ++ [.mention owner ref]) next := by
  have edges : (events ++ [Event.mention owner ref]).filterMap Event.edge? = events.filterMap Event.edge? := by
    simp [Event.edge?]
  rcases mention_taken accepted with ⟨known, declared, found, taken, rfl⟩ | ⟨fresh, declared, taken, rfl⟩
  · have idKnown := Known.id_of_find? found
    have isKnown := List.mem_of_find?_eq_some found
    have idDeclared := (Known.id_of_declare taken).trans idKnown
    constructor
    · rw [refsOf_mention, firstIds_append, ← resolves.ids, if_pos]
      · simp only [ids, List.map_map]
        refine List.map_congr_left ?_
        intro old _
        simp only [Function.comp_apply]
        split
        · rename_i same
          exact idDeclared.trans (eq_of_beq same).symm
        · rfl
      · exact List.mem_map.2 ⟨known, isKnown, idKnown⟩
    · rw [refsOf_mention]
      intro other mem
      obtain ⟨old, isOld, rfl⟩ := List.mem_map.1 mem
      by_cases same : old.id = ref.id
      · rw [if_pos (beq_iff_eq.2 same)]
        exact Known.settled_declare (resolves.known known isKnown) idKnown.symm taken
      · rw [if_neg (by simpa using same)]
        exact Known.settled_other (resolves.known old isOld) (Ne.symm same)
    · exact resolves.edges.trans edges.symm
  · have idDeclared := Known.id_of_declare taken
    have isFresh : ref.id ∉ firstIds (refsOf events) := resolves.ids ▸ fresh
    constructor
    · rw [refsOf_mention, firstIds_append, if_neg isFresh, ← resolves.ids]
      simp [ids, idDeclared]
    · rw [refsOf_mention]
      intro other mem
      rcases List.mem_append.1 mem with before | new
      · refine Known.settled_other (resolves.known other before) ?_
        intro same
        exact fresh (List.mem_map.2 ⟨other, before, same.symm⟩)
      · rw [List.mem_singleton.1 new]
        refine Known.settled_declare ⟨?_, fun _ => rfl, ?_⟩ rfl taken
        · rw [declarations_eq_nil isFresh]
          exact fun _ mem => absurd mem List.not_mem_nil
        · rw [declarations_eq_nil isFresh]
          rfl
    · exact resolves.edges.trans edges.symm

theorem resolves_step (resolves : Resolves events builder) (accepted : builder.step event = .ok next) :
    Resolves (events ++ [event]) next := by
  cases event with
  | mention owner ref => exact resolves_mention resolves accepted
  | edge edge =>
    have refs : refsOf (events ++ [.edge edge]) = refsOf events := by simp [refsOf, Event.mention?]
    cases accepted
    refine ⟨refs ▸ resolves.ids, refs ▸ resolves.known, ?_⟩
    rw [List.filterMap_append, ← resolves.edges]
    rfl
  | block owner id title place =>
    have refs : refsOf (events ++ [.block owner id title place]) = refsOf events := by
      simp [refsOf, Event.mention?]
    obtain ⟨-, rfl⟩ := open_ok accepted
    refine ⟨refs ▸ resolves.ids, refs ▸ resolves.known, ?_⟩
    rw [List.filterMap_append, ← resolves.edges]
    exact (List.append_nil _).symm

theorem resolves_run (grounded : Grounded [] events) (accepted : events.foldlM step {} = .ok builder) :
    Resolves events builder :=
  run_induction resolves_nil (fun _ _ _ resolves taken => resolves_step resolves taken) grounded accepted

end Builder

namespace Graph

variable {diagram : Diagram} {graph : Graph}

/-- The builder behind a graph resolves all references of the diagram. -/
theorem resolves_ofDiagram (built : ofDiagram diagram = .ok graph) :
    ∃ builder : Builder, Builder.Resolves diagram.events builder ∧
      Builder.refsOf diagram.events = diagram.refs ∧
        graph = ⟨diagram.direction, builder.known.map Known.node, builder.edges, builder.subgraphs⟩ := by
  obtain ⟨builder, accepted, -, isGraph⟩ := run_of_ofDiagram built
  refine ⟨builder, Builder.resolves_run diagram.grounded_events accepted, ?_, isGraph⟩
  rw [Builder.refsOf, diagram.filterMap_mention?, diagram.map_mentions]

theorem ids_eq_firstIds (built : ofDiagram diagram = .ok graph) : graph.ids = firstIds diagram.refs := by
  obtain ⟨builder, resolves, refs, rfl⟩ := resolves_ofDiagram built
  rw [← refs, ← resolves.ids]
  simp [ids, Builder.ids, Known.node]

theorem ofDiagram_describes (built : ofDiagram diagram = .ok graph) : graph.Describes diagram := by
  have ids := ids_eq_firstIds built
  have wellFormed := wellFormed_ofDiagram built
  obtain ⟨builder, resolves, refs, rfl⟩ := resolves_ofDiagram built
  have edges : builder.edges = diagram.edges := resolves.edges.trans diagram.filterMap_edge?
  constructor
  · exact ids
  · intro node mem
    obtain ⟨known, isKnown, rfl⟩ := List.mem_map.1 mem
    exact Known.resolves_node (refs ▸ resolves.known known isKnown)
  · exact edges
  · intro linked
    show builder.edges.map _ = _
    rw [edges, Diagram.looks_edges linked]
  · exact wellFormed.2

/-- A node that is mentioned in a block and declared outside of it. -/
theorem ofDiagram_describes_upgraded :
    ∃ diagram graph, Diagram.ofSource "graph\nsubgraph s\nA-->B\nend\nB(y)" = .ok diagram ∧
      ofDiagram diagram = .ok graph ∧ graph.Describes diagram := by
  have run : ((Diagram.ofSource "graph\nsubgraph s\nA-->B\nend\nB(y)").toOption.map fun diagram =>
      (ofDiagram diagram).toOption.isSome) = some true := by decide +kernel
  cases read : Diagram.ofSource "graph\nsubgraph s\nA-->B\nend\nB(y)" with
  | error failure =>
    rw [read] at run
    cases run
  | ok diagram =>
    rw [read] at run
    cases built : ofDiagram diagram with
    | error error => simp [Except.toOption, built] at run
    | ok graph => exact ⟨diagram, graph, rfl, built, ofDiagram_describes built⟩

end Graph
end Flowchart
