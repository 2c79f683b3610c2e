import Flowchart.Proofs.Graph.Conflict

/-!
What holds of every graph that a diagram describes: no id stands twice, edges join nodes, and a subgraph
holds nodes of the graph and subgraphs that stand behind it. The events of a diagram refer only to what
earlier ones told, and that is all the builder needs.
-/
namespace Flowchart

open Construct

variable {cs : List Construct} {owner : Option String} {id : String} {event : Event} {events : List Event}

/-- The block around a statement is open, if there is one. -/
def Inside (cs : List Construct) (owner : Option String) : Prop :=
  ∀ outer, owner = some outer → ∃ place, .block outer place ∈ cs

theorem inside_append (inside : Inside cs owner) (more : List Construct) : Inside (cs ++ more) owner := by
  intro outer isOwner
  obtain ⟨place, mem⟩ := inside outer isOwner
  exact ⟨place, List.mem_append_left _ mem⟩

/-- What the event refers to was told before. -/
def Event.Grounded (cs : List Construct) : Event → Prop
  | .mention owner _ => Inside cs owner
  | .edge joint => (mentioned? cs joint.source).isSome = true ∧ (mentioned? cs joint.target).isSome = true
  | .block owner _ _ _ => Inside cs owner

/-- Each of the events refers to what was told in front of it. -/
def Grounded (cs : List Construct) : List Event → Prop
  | [] => True
  | event :: events => event.Grounded cs ∧ Grounded (cs ++ (ofEvent? event).toList) events

theorem grounded_append {more : List Event} (front : Grounded cs events)
    (behind : Grounded (cs ++ events.filterMap ofEvent?) more) : Grounded cs (events ++ more) := by
  induction events generalizing cs with
  | nil => simpa using behind
  | cons event events ih =>
    refine ⟨front.1, ih front.2 ?_⟩
    cases isConstruct : ofEvent? event <;> simpa [isConstruct] using behind

theorem grounded_mentions (inside : Inside cs owner) (nodes : List NodeRef) :
    Grounded cs (nodes.map (.mention owner)) := by
  induction nodes generalizing cs with
  | nil => exact trivial
  | cons node nodes ih => exact ⟨inside, ih (inside_append inside _)⟩

theorem grounded_edges {edges : List Edge} (mentioned : ∀ edge ∈ edges, (Event.edge edge).Grounded cs) :
    Grounded cs (edges.map .edge) := by
  induction edges with
  | nil => exact trivial
  | cons edge edges ih =>
    refine ⟨mentioned _ List.mem_cons_self, ?_⟩
    rw [show cs ++ (ofEvent? (.edge edge)).toList = cs from List.append_nil cs]
    exact ih fun other mem => mentioned other (List.mem_cons_of_mem _ mem)

theorem ends_of_mem_edges {edge : Edge} {nodes : List NodeRef} {links : List Link}
    (mem : edge ∈ Link.edges nodes links) :
    ∃ source ∈ nodes, ∃ target ∈ nodes, edge.source = source.id ∧ edge.target = target.id := by
  obtain ⟨⟨⟨source, target⟩, link⟩, joined, rfl⟩ := List.mem_map.1 mem
  have ends := List.of_mem_zip (List.of_mem_zip joined).1
  exact ⟨source, ends.1, target, List.mem_of_mem_drop ends.2, rfl, rfl⟩

namespace Statement

mutual

theorem grounded_events : ∀ {cs : List Construct} {owner : Option String} (statement : Statement),
    Inside cs owner → Grounded cs (statement.events owner)
  | _, _, .node reference span, inside => ⟨inside, trivial⟩
  | cs, owner, .chain nodes links span, inside => by
    refine grounded_append (grounded_mentions inside nodes) (grounded_edges ?_)
    intro edge mem
    obtain ⟨source, isSource, target, isTarget, sourceId, targetId⟩ := ends_of_mem_edges mem
    have told (node : NodeRef) (mem : node ∈ nodes) :
        .ref node ∈ cs ++ (nodes.map (.mention owner)).filterMap ofEvent? := by
      refine List.mem_append_right _ (List.mem_filterMap.2 ⟨.mention owner node, ?_, rfl⟩)
      exact List.mem_map.2 ⟨node, mem, rfl⟩
    rw [Event.Grounded, sourceId, targetId]
    exact ⟨Builder.mentioned?_isSome (told _ isSource), Builder.mentioned?_isSome (told _ isTarget)⟩
  | cs, owner, .subgraph id title body span, inside => by
    refine ⟨inside, grounded_eventsOfList body ?_⟩
    intro outer isOwner
    cases isOwner
    exact ⟨span.start, by simp [ofEvent?]⟩

theorem grounded_eventsOfList : ∀ {cs : List Construct} {owner : Option String} (body : List Statement),
    Inside cs owner → Grounded cs (Statement.events.eventsOfList owner body)
  | _, _, [], _ => trivial
  | _, _, statement :: body, inside =>
    grounded_append (grounded_events statement inside)
      (grounded_eventsOfList body (inside_append inside _))

end

end Statement

theorem Diagram.grounded_events (diagram : Diagram) : Grounded [] diagram.events :=
  Statement.grounded_eventsOfList diagram.statements nofun

/-- Every subgraph stands in front of its children. -/
def Nested : List Subgraph → Prop
  | [] => True
  | subgraph :: behind =>
    (∀ child ∈ subgraph.children, child ∈ behind.map Subgraph.id) ∧ Nested behind

theorem nested_of_append {front behind : List Subgraph} (nested : Nested (front ++ behind)) : Nested behind := by
  induction front with
  | nil => exact nested
  | cons first front ih => exact ih nested.2

namespace Known

variable {ref : NodeRef} {known next : Known}

/-- All that a reference changes if it is not refused. -/
theorem declare_ok (accepted : known.declare ref = .ok next) :
    (ref.shape = none ∧ next = known) ∨
      ∃ shape, ref.shape = some shape ∧
        (∀ first place, known.declared = some (first, place) → first = shape) ∧
        next = { known with declared := some (shape, ref.span.start), label := ref.label.or known.label } := by
  cases isShape : ref.shape with
  | none =>
    left
    simp only [declare, isShape, Except.ok.injEq] at accepted
    exact ⟨rfl, accepted.symm⟩
  | some shape =>
    right
    refine ⟨shape, rfl, ?_⟩
    cases isDeclared : known.declared with
    | none =>
      simp only [declare, isShape, isDeclared, Except.ok.injEq] at accepted
      exact ⟨fun _ _ given => (by cases given), accepted.symm⟩
    | some previous =>
      by_cases same : previous.1 = shape
      · simp only [declare, isShape, isDeclared, same, if_true, Except.ok.injEq] at accepted
        refine ⟨?_, accepted.symm⟩
        intro first place given
        cases given
        exact same
      · simp [declare, isShape, isDeclared, same] at accepted

theorem id_of_declare (accepted : known.declare ref = .ok next) : next.id = known.id := by
  rcases declare_ok accepted with ⟨-, rfl⟩ | ⟨shape, -, -, rfl⟩ <;> rfl

end Known

namespace Builder

variable {subgraphs : List Subgraph} {change : Subgraph → Subgraph} {builder next : Builder}

theorem ids_update (owner : Option String) (keeps : ∀ subgraph, (change subgraph).id = subgraph.id) :
    (update subgraphs owner change).map Subgraph.id = subgraphs.map Subgraph.id := by
  cases owner with
  | none => rfl
  | some outer =>
    rw [update, List.map_map]
    refine List.map_congr_left ?_
    intro subgraph _
    simp only [Function.comp_apply]
    split
    · exact keeps subgraph
    · rfl

theorem mem_update {subgraph : Subgraph} (mem : subgraph ∈ update subgraphs owner change) :
    ∃ old ∈ subgraphs, subgraph = old ∨ subgraph = change old := by
  cases owner with
  | none => exact ⟨subgraph, mem, .inl rfl⟩
  | some outer =>
    obtain ⟨old, isOld, rfl⟩ := List.mem_map.1 mem
    refine ⟨old, isOld, ?_⟩
    split
    · exact .inr rfl
    · exact .inl rfl

/-- A change may add children that stand behind the changed subgraph. -/
theorem nested_update (keeps : ∀ subgraph, (change subgraph).id = subgraph.id) (nested : Nested subgraphs)
    (behind : ∀ front subgraph rest, subgraphs = front ++ subgraph :: rest → owner = some subgraph.id →
      ∀ child ∈ (change subgraph).children, child ∈ subgraph.children ∨ child ∈ rest.map Subgraph.id) :
    Nested (update subgraphs owner change) := by
  cases owner with
  | none => exact nested
  | some outer =>
    induction subgraphs with
    | nil => exact trivial
    | cons subgraph rest ih =>
      have ids : (rest.map fun old => if old.id == outer then change old else old).map Subgraph.id =
          rest.map Subgraph.id := ids_update (some outer) keeps
      refine ⟨?_, ih nested.2 ?_⟩
      · intro child mem
        rw [ids]
        by_cases same : subgraph.id = outer
        · subst same
          simp only [beq_self_eq_true, if_true] at mem
          rcases behind [] subgraph rest rfl rfl child mem with old | new
          · exact nested.1 child old
          · exact new
        · simp only [beq_iff_eq, same, if_false] at mem
          exact nested.1 child mem
      · intro front other more split
        exact behind (subgraph :: front) other more (by rw [split, List.cons_append])

theorem nested_append {new : Subgraph} (childless : new.children = []) (nested : Nested subgraphs) :
    Nested (subgraphs ++ [new]) := by
  induction subgraphs with
  | nil =>
    refine ⟨?_, trivial⟩
    rw [childless]
    exact fun _ => nofun
  | cons subgraph rest ih =>
    refine ⟨?_, ih nested.2⟩
    intro child mem
    show child ∈ (rest ++ [new]).map Subgraph.id
    rw [List.map_append]
    exact List.mem_append_left _ (nested.1 child mem)

/-- A fresh block becomes a child of the block around it. -/
theorem nested_open {title : Option String} (nested : Nested subgraphs)
    (fresh : id ∉ subgraphs.map Subgraph.id)
    (inside : ∀ outer, owner = some outer → outer ∈ subgraphs.map Subgraph.id) :
    Nested (update (subgraphs ++ [⟨id, title, [], []⟩]) owner fun subgraph =>
      { subgraph with children := subgraph.children ++ [id] }) := by
  refine nested_update ?_ (nested_append rfl nested) ?_
  · exact fun _ => rfl
  · intro front subgraph rest split isOwner child mem
    rcases List.mem_append.1 mem with old | new
    · exact .inl old
    · right
      rw [List.mem_singleton.1 new]
      -- The block around it is another one, so the fresh block stands behind it.
      rcases List.eq_nil_or_concat rest with rfl | ⟨init, last, rfl⟩
      · have same := (List.append_inj' split rfl).2
        cases same
        exact absurd (inside id isOwner) fresh
      · rw [List.concat_eq_append, ← List.cons_append, ← List.append_assoc] at split
        have same := (List.append_inj' split rfl).2
        cases same
        simp

/-- The ids of the nodes that are known. -/
def ids (builder : Builder) : List String :=
  builder.known.map Known.id

/-- All that a mention changes if it is not refused. -/
theorem mention_taken {ref : NodeRef} (accepted : builder.mention owner ref = .ok next) :
    (∃ known declared, builder.known.find? (·.id == ref.id) = some known ∧ known.declare ref = .ok declared ∧
      next = { builder with
        known := builder.known.map fun old => if old.id == ref.id then declared else old }) ∨
    ref.id ∉ builder.ids ∧ ∃ declared,
      Known.declare { id := ref.id, firstAt := ref.span.start } ref = .ok declared ∧
        next = { builder with
          known := builder.known ++ [declared]
          subgraphs := update builder.subgraphs owner fun subgraph =>
            { subgraph with members := subgraph.members ++ [ref.id] } } := by
  cases found : builder.known.find? (·.id == ref.id) with
  | some known =>
    left
    cases isDeclared : known.declare ref with
    | error error => simp [mention, found, isDeclared, bind, Except.bind] at accepted
    | ok declared =>
      simp only [mention, found, isDeclared, bind, Except.bind, pure, Except.pure, Except.ok.injEq] at accepted
      exact ⟨known, declared, rfl, isDeclared, accepted.symm⟩
  | none =>
    right
    refine ⟨?_, ?_⟩
    · intro mem
      obtain ⟨known, isKnown, same⟩ := List.mem_map.1 mem
      have other := List.find?_eq_none.1 found known isKnown
      simp [same] at other
    · cases isDeclared : Known.declare { id := ref.id, firstAt := ref.span.start } ref with
      | error error => simp [mention, found, isDeclared, bind, Except.bind] at accepted
      | ok declared =>
        simp only [mention, found, isDeclared, bind, Except.bind, pure, Except.pure, Except.ok.injEq] at accepted
        exact ⟨declared, rfl, accepted.symm⟩

/-- A mention that is taken up adds a node, or the node was known. -/
theorem mention_ok {ref : NodeRef} (accepted : builder.mention owner ref = .ok next) :
    next.edges = builder.edges ∧ next.places = builder.places ∧
      ((next.ids = builder.ids ∧ next.subgraphs = builder.subgraphs) ∨
        (ref.id ∉ builder.ids ∧ next.ids = builder.ids ++ [ref.id] ∧
          next.subgraphs = update builder.subgraphs owner fun subgraph =>
            { subgraph with members := subgraph.members ++ [ref.id] })) := by
  rcases mention_taken accepted with ⟨known, declared, found, taken, rfl⟩ | ⟨fresh, declared, taken, rfl⟩
  · have idDeclared : declared.id = ref.id := (Known.id_of_declare taken).trans (Known.id_of_find? found)
    refine ⟨rfl, rfl, .inl ⟨?_, rfl⟩⟩
    rw [ids, List.map_map]
    refine List.map_congr_left fun old _ => ?_
    simp only [Function.comp_apply]
    split
    · rename_i same
      exact idDeclared.trans (eq_of_beq same).symm
    · rfl
  · refine ⟨rfl, rfl, .inr ⟨fresh, ?_, rfl⟩⟩
    simp [ids, Known.id_of_declare taken]

theorem open_ok {title : Option String} {place : Position}
    (accepted : builder.open_ owner id title place = .ok next) :
    id ∉ builder.places.map Prod.fst ∧ next = { builder with
      subgraphs := update (builder.subgraphs ++ [⟨id, title, [], []⟩]) owner fun subgraph =>
        { subgraph with children := subgraph.children ++ [id] }
      places := builder.places ++ [(id, place)] } := by
  cases found : builder.places.lookup id with
  | some firstAt => simp [open_, found] at accepted
  | none =>
    simp only [open_, found, Except.ok.injEq] at accepted
    refine ⟨?_, accepted.symm⟩
    intro mem
    obtain ⟨entry, isEntry, same⟩ := List.mem_map.1 mem
    have other := List.lookup_eq_none_iff.1 found entry isEntry
    simp [same] at other

/-- What the builder has taken up hangs together. -/
structure Sound (builder : Builder) : Prop where
  nodes : builder.ids.Nodup
  edges : ∀ edge ∈ builder.edges, edge.source ∈ builder.ids ∧ edge.target ∈ builder.ids
  blocks : builder.subgraphs.map Subgraph.id = builder.places.map Prod.fst
  distinct : (builder.subgraphs.map Subgraph.id).Nodup
  members : ∀ subgraph ∈ builder.subgraphs, ∀ id ∈ subgraph.members, id ∈ builder.ids
  nested : Nested builder.subgraphs

theorem nodup_concat {ids : List String} (nodup : ids.Nodup) (fresh : id ∉ ids) : (ids ++ [id]).Nodup := by
  refine List.nodup_append.2 ⟨nodup, List.pairwise_singleton _ _, ?_⟩
  intro other mem new isNew same
  rw [List.mem_singleton.1 isNew] at same
  exact fresh (same ▸ mem)

theorem sound_nil : Sound {} :=
  ⟨.nil, nofun, rfl, .nil, nofun, trivial⟩

theorem mem_ids_iff (tracks : Tracks builder cs) :
    id ∈ builder.ids ↔ (mentioned? cs id).isSome = true := by
  rw [← tracks.mentioned, Option.isSome_map, List.find?_isSome, ids, List.mem_map]
  simp only [beq_iff_eq]

theorem sound_mention {node : NodeRef} (sound : Sound builder)
    (accepted : builder.mention owner node = .ok next) : Sound next := by
  obtain ⟨edges, places, ⟨ids, subgraphs⟩ | ⟨fresh, ids, subgraphs⟩⟩ := mention_ok accepted
  · constructor
    · exact ids ▸ sound.nodes
    · rw [edges, ids]
      exact sound.edges
    · rw [subgraphs, places]
      exact sound.blocks
    · exact subgraphs ▸ sound.distinct
    · rw [subgraphs, ids]
      exact sound.members
    · exact subgraphs ▸ sound.nested
  · have keeps : (next.subgraphs).map Subgraph.id = builder.subgraphs.map Subgraph.id := by
      rw [subgraphs]
      exact ids_update owner fun _ => rfl
    constructor
    · rw [ids]
      exact nodup_concat sound.nodes fresh
    · rw [edges, ids]
      intro edge mem
      have ends := sound.edges edge mem
      exact ⟨List.mem_append_left _ ends.1, List.mem_append_left _ ends.2⟩
    · rw [keeps, places]
      exact sound.blocks
    · rw [keeps]
      exact sound.distinct
    · rw [subgraphs, ids]
      intro subgraph mem id isMember
      obtain ⟨old, isOld, rfl | rfl⟩ := mem_update mem
      · exact List.mem_append_left _ (sound.members _ isOld id isMember)
      · rcases List.mem_append.1 isMember with before | new
        · exact List.mem_append_left _ (sound.members old isOld id before)
        · exact List.mem_append_right _ new
    · rw [subgraphs]
      exact nested_update (fun _ => rfl) sound.nested fun _ _ _ _ _ _ mem => .inl mem

theorem sound_open {title : Option String} {place : Position} (tracks : Tracks builder cs)
    (sound : Sound builder) (inside : Inside cs owner)
    (accepted : builder.open_ owner id title place = .ok next) : Sound next := by
  obtain ⟨fresh, rfl⟩ := open_ok accepted
  rw [← sound.blocks] at fresh
  have around (outer : String) (isOwner : owner = some outer) : outer ∈ builder.subgraphs.map Subgraph.id := by
    obtain ⟨firstAt, mem⟩ := inside outer isOwner
    rw [sound.blocks, tracks.places]
    exact List.mem_map.2 ⟨(outer, firstAt), List.mem_filterMap.2 ⟨_, mem, rfl⟩, rfl⟩
  have keeps : (update (builder.subgraphs ++ [⟨id, title, [], []⟩]) owner fun subgraph =>
      { subgraph with children := subgraph.children ++ [id] }).map Subgraph.id =
        builder.subgraphs.map Subgraph.id ++ [id] := by
    rw [ids_update, List.map_append]
    · rfl
    · exact fun _ => rfl
  constructor
  · exact sound.nodes
  · exact sound.edges
  · rw [keeps, sound.blocks, List.map_append]
    rfl
  · rw [keeps]
    exact nodup_concat sound.distinct fresh
  · intro subgraph mem member isMember
    have unchanged : ∃ old ∈ builder.subgraphs ++ [(⟨id, title, [], []⟩ : Subgraph)],
        subgraph.members = old.members := by
      obtain ⟨old, isOld, rfl | rfl⟩ := mem_update mem
      · exact ⟨_, isOld, rfl⟩
      · exact ⟨old, isOld, rfl⟩
    obtain ⟨old, isOld, same⟩ := unchanged
    rw [same] at isMember
    rcases List.mem_append.1 isOld with before | new
    · exact sound.members old before member isMember
    · rw [List.mem_singleton.1 new] at isMember
      cases isMember
  · exact nested_open sound.nested fresh around

theorem sound_step (tracks : Tracks builder cs) (sound : Sound builder) (grounded : event.Grounded cs)
    (accepted : builder.step event = .ok next) : Sound next := by
  cases event with
  | mention owner node => exact sound_mention sound accepted
  | edge edge =>
    cases accepted
    refine ⟨sound.nodes, ?_, sound.blocks, sound.distinct, sound.members, sound.nested⟩
    intro other mem
    rcases List.mem_append.1 mem with before | new
    · exact sound.edges other before
    · rw [List.mem_singleton.1 new]
      exact ⟨(mem_ids_iff tracks).2 grounded.1, (mem_ids_iff tracks).2 grounded.2⟩
  | block owner id title place => exact sound_open tracks sound grounded accepted

theorem sound_run (tracks : Tracks builder cs) (consistent : Consistent cs) (sound : Sound builder)
    (grounded : Grounded cs events) (accepted : events.foldlM step builder = .ok next) : Sound next := by
  induction events generalizing builder cs with
  | nil =>
    cases accepted
    exact sound
  | cons event events ih =>
    rw [List.foldlM_cons] at accepted
    rcases step_cases tracks consistent event with ⟨error, first, second, c, refused, -⟩ |
      ⟨between, taken, tracked, stillConsistent⟩
    · rw [refused] at accepted
      cases accepted
    · rw [taken] at accepted
      exact ih tracked stillConsistent (sound_step tracks sound grounded.1 taken) grounded.2 accepted

end Builder

namespace Graph

variable {diagram : Diagram} {graph : Graph}

/-- The subgraphs hold nodes of the graph, and further subgraphs that stand behind them. -/
structure Grouped (graph : Graph) : Prop where
  distinct : (graph.subgraphs.map Subgraph.id).Nodup
  members : ∀ subgraph ∈ graph.subgraphs, ∀ id ∈ subgraph.members, id ∈ graph.ids
  nested : Nested graph.subgraphs

/-- The run behind a graph: all events were taken up, and no block shares its id with a node. -/
theorem run_of_ofDiagram (built : ofDiagram diagram = .ok graph) :
    ∃ builder : Builder, diagram.events.foldlM Builder.step {} = .ok builder ∧ builder.clash? = none ∧
      graph = ⟨diagram.direction, builder.known.map Known.node, builder.edges, builder.subgraphs⟩ := by
  cases run : diagram.events.foldlM Builder.step {} with
  | error error => simp [ofDiagram, run, bind, Except.bind] at built
  | ok builder =>
    cases clash : builder.clash? with
    | some error =>
      simp [ofDiagram, run, clash, bind, Except.bind, throw, throwThe, MonadExceptOf.throw] at built
    | none =>
      simp only [ofDiagram, run, clash, bind, Except.bind, pure, Except.pure, Except.ok.injEq] at built
      exact ⟨builder, rfl, clash, built.symm⟩

theorem builder_of_ofDiagram (built : ofDiagram diagram = .ok graph) :
    ∃ builder : Builder, Builder.Tracks builder diagram.constructs ∧ Builder.Sound builder ∧
      graph.ids = builder.ids ∧ graph.edges = builder.edges ∧ graph.subgraphs = builder.subgraphs := by
  obtain ⟨builder, accepted, -, rfl⟩ := run_of_ofDiagram built
  have sound := Builder.sound_run Builder.tracks_nil .nil Builder.sound_nil diagram.grounded_events accepted
  have ids : Graph.ids ⟨diagram.direction, builder.known.map Known.node, builder.edges, builder.subgraphs⟩ =
      builder.ids := by
    simp [Graph.ids, Builder.ids, Known.node]
  have run := Builder.run_cases Builder.tracks_nil .nil diagram.events
  rw [diagram.filterMap_events, List.nil_append] at run
  rcases run with ⟨error, first, second, refused, -⟩ | ⟨same, again, tracks, consistent⟩
  · rw [accepted] at refused
    cases refused
  · obtain rfl : builder = same := Except.ok.inj (accepted.symm.trans again)
    exact ⟨builder, tracks, sound, ids, rfl, rfl⟩

theorem wellFormed_ofDiagram (built : ofDiagram diagram = .ok graph) : graph.WellFormed := by
  obtain ⟨builder, -, sound, ids, edges, -⟩ := builder_of_ofDiagram built
  rw [WellFormed, ids, edges]
  exact ⟨sound.nodes, sound.edges⟩

theorem grouped_ofDiagram (built : ofDiagram diagram = .ok graph) : graph.Grouped := by
  obtain ⟨builder, -, sound, ids, -, subgraphs⟩ := builder_of_ofDiagram built
  constructor
  · exact subgraphs ▸ sound.distinct
  · rw [subgraphs, ids]
    exact sound.members
  · exact subgraphs ▸ sound.nested

/-- The nodes are the ids that the diagram mentions. -/
theorem mem_ids_ofDiagram (built : ofDiagram diagram = .ok graph) (id : String) :
    id ∈ graph.ids ↔ ∃ node, .ref node ∈ diagram.constructs ∧ node.id = id := by
  obtain ⟨builder, tracks, -, ids, -, -⟩ := builder_of_ofDiagram built
  rw [ids, Builder.mem_ids_iff tracks]
  constructor
  · intro mentioned
    obtain ⟨place, isPlace⟩ := Option.isSome_iff_exists.1 mentioned
    obtain ⟨pre, node, post, split, same, -⟩ := Builder.mentioned?_eq_some isPlace
    exact ⟨node, by rw [split]; simp, same⟩
  · rintro ⟨node, mem, rfl⟩
    exact Builder.mentioned?_isSome mem

theorem nodes_eq_nil_iff (built : ofDiagram diagram = .ok graph) :
    graph.nodes = [] ↔ ∀ node, .ref node ∉ diagram.constructs := by
  rw [← List.map_eq_nil_iff (f := Node.id), List.eq_nil_iff_forall_not_mem]
  constructor
  · intro none node mem
    exact none node.id ((mem_ids_ofDiagram built node.id).2 ⟨node, mem, rfl⟩)
  · intro none id mem
    obtain ⟨node, isNode, -⟩ := (mem_ids_ofDiagram built id).1 mem
    exact none node isNode

end Graph
end Flowchart
