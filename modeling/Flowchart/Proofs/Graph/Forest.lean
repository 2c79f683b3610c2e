import Mathlib.Data.List.Nodup
import Mathlib.Logic.Relation
import Flowchart.Proofs.Graph.Resolution

/-!
The subgraphs of a graph are the blocks of its diagram. They form a forest, in which each block is a child of
the block directly around it, and each node belongs to the block directly around its first mention.
-/
namespace Flowchart

/-- The block directly around the first mention of a node, if there is one. -/
def home? (mentions : List (Option String × NodeRef)) (id : String) : Option (Option String) :=
  (mentions.find? (·.2.id == id)).map Prod.fst

/-- The nodes whose first mention stands directly in a block. -/
def membersOf (mentions : List (Option String × NodeRef)) (block : String) : List String :=
  (firstIds (mentions.map Prod.snd)).filter fun id => home? mentions id == some (some block)

/-- The blocks that stand directly in a block. -/
def childrenOf (blocks : List (Option String × String × Option String)) (block : String) : List String :=
  (blocks.filter fun entry => entry.1 == some block).map fun entry => entry.2.1

/-- The subgraph that a block is, among mentions and further blocks. -/
def subgraphOf (mentions : List (Option String × NodeRef))
    (blocks : List (Option String × String × Option String))
    (entry : Option String × String × Option String) : Subgraph :=
  ⟨entry.2.1, entry.2.2, membersOf mentions entry.2.1, childrenOf blocks entry.2.1⟩

def Diagram.subgraphs (diagram : Diagram) : List Subgraph :=
  diagram.blocks.map (subgraphOf diagram.mentions diagram.blocks)

namespace Graph

/-- The outer subgraph lists the inner one as its child. -/
def IsParent (graph : Graph) (outer inner : String) : Prop :=
  ∃ subgraph ∈ graph.subgraphs, subgraph.id = outer ∧ inner ∈ subgraph.children

/-- The subgraphs are the blocks of a diagram, a forest that shares the nodes out. -/
structure Forest (diagram : Diagram) (graph : Graph) : Prop where
  blocks : graph.subgraphs.map Subgraph.id = diagram.blocks.map fun entry => entry.2.1
  distinct : (graph.subgraphs.map Subgraph.id).Nodup
  apart : ∀ subgraph ∈ graph.subgraphs, subgraph.id ∉ graph.ids
  behind : ∀ front subgraph rest, graph.subgraphs = front ++ subgraph :: rest →
    ∀ child ∈ subgraph.children, child ∈ rest.map Subgraph.id
  parent : ∀ subgraph ∈ graph.subgraphs, ∀ child,
    child ∈ subgraph.children ↔ ∃ title, (some subgraph.id, child, title) ∈ diagram.blocks
  single : (graph.subgraphs.flatMap Subgraph.children).Nodup
  acyclic : ∀ id, ¬Relation.TransGen graph.IsParent id id
  owned : ∀ subgraph ∈ graph.subgraphs, ∀ id,
    id ∈ subgraph.members ↔ home? diagram.mentions id = some (some subgraph.id)
  once : (graph.subgraphs.flatMap Subgraph.members).Nodup
  nodes : ∀ subgraph ∈ graph.subgraphs, ∀ id ∈ subgraph.members, id ∈ graph.ids

end Graph

variable {mentions : List (Option String × NodeRef)} {blocks : List (Option String × String × Option String)}
  {owner : Option String} {ref : NodeRef} {id block : String} {title : Option String}

theorem home?_append (mentions : List (Option String × NodeRef)) (owner : Option String) (ref : NodeRef)
    (id : String) :
    home? (mentions ++ [(owner, ref)]) id =
      (home? mentions id).or (if ref.id = id then some owner else none) := by
  rw [home?, List.find?_append, Option.map_or]
  by_cases same : ref.id = id <;> simp [home?, same]

theorem isSome_home? : (home? mentions id).isSome = true ↔ id ∈ firstIds (mentions.map Prod.snd) := by
  rw [home?, Option.isSome_map, List.find?_isSome, mem_firstIds]
  simp only [beq_iff_eq, List.mem_map]
  constructor
  · rintro ⟨entry, mem, same⟩
    exact ⟨entry.2, ⟨entry, mem, rfl⟩, same⟩
  · rintro ⟨ref, ⟨entry, mem, rfl⟩, same⟩
    exact ⟨entry, mem, same⟩

theorem home?_eq_none (fresh : id ∉ firstIds (mentions.map Prod.snd)) : home? mentions id = none := by
  rw [← Option.not_isSome_iff_eq_none, isSome_home?]
  exact fresh

theorem mem_membersOf : id ∈ membersOf mentions block ↔ home? mentions id = some (some block) := by
  rw [membersOf, List.mem_filter, beq_iff_eq]
  constructor
  · exact And.right
  · intro isHome
    refine ⟨isSome_home?.1 ?_, isHome⟩
    rw [isHome]
    rfl

theorem mem_childrenOf : id ∈ childrenOf blocks block ↔ ∃ title, (some block, id, title) ∈ blocks := by
  rw [childrenOf, List.mem_map]
  constructor
  · rintro ⟨⟨outer, inner, title⟩, mem, rfl⟩
    obtain ⟨mem, isOuter⟩ := List.mem_filter.1 mem
    exact ⟨title, eq_of_beq isOuter ▸ mem⟩
  · rintro ⟨title, mem⟩
    exact ⟨_, List.mem_filter.2 ⟨mem, beq_self_eq_true _⟩, rfl⟩

/-- Homes of nodes that were mentioned before stay. -/
theorem filter_home?_append {ids : List String} (known : ∀ id ∈ ids, id ∈ firstIds (mentions.map Prod.snd)) :
    (ids.filter fun id => home? (mentions ++ [(owner, ref)]) id == some (some block)) =
      ids.filter fun id => home? mentions id == some (some block) := by
  refine List.filter_congr ?_
  intro id mem
  obtain ⟨home, isHome⟩ := Option.isSome_iff_exists.1 (isSome_home?.2 (known id mem))
  rw [home?_append, isHome]
  rfl

theorem membersOf_known (known : ref.id ∈ firstIds (mentions.map Prod.snd)) :
    membersOf (mentions ++ [(owner, ref)]) block = membersOf mentions block := by
  rw [membersOf, List.map_append, List.map_singleton, firstIds_append, if_pos known]
  exact filter_home?_append fun _ mem => mem

theorem membersOf_fresh (fresh : ref.id ∉ firstIds (mentions.map Prod.snd)) :
    membersOf (mentions ++ [(owner, ref)]) block =
      membersOf mentions block ++ if owner = some block then [ref.id] else [] := by
  rw [membersOf, List.map_append, List.map_singleton, firstIds_append, if_neg fresh, List.filter_append,
    filter_home?_append fun _ mem => mem, List.filter_cons, home?_append, home?_eq_none fresh]
  by_cases isOwner : owner = some block <;> simp [membersOf, isOwner]

theorem childrenOf_append (blocks : List (Option String × String × Option String))
    (entry : Option String × String × Option String) (block : String) :
    childrenOf (blocks ++ [entry]) block =
      childrenOf blocks block ++ if entry.1 = some block then [entry.2.1] else [] := by
  rw [childrenOf, List.filter_append, List.filter_cons, List.filter_nil]
  by_cases isOuter : entry.1 = some block <;> simp [childrenOf, isOuter]

namespace Builder

variable {builder next : Builder} {events : List Event} {event : Event} {cs : List Construct}

def mentionsOf (events : List Event) : List (Option String × NodeRef) :=
  events.filterMap Event.mention?

def blocksOf (events : List Event) : List (Option String × String × Option String) :=
  events.filterMap Event.block?

/-- The builder has grouped what some events tell, and they refer to blocks among them. -/
structure Groups (events : List Event) (builder : Builder) : Prop where
  subgraphs : builder.subgraphs = (blocksOf events).map (subgraphOf (mentionsOf events) (blocksOf events))
  mentions : ∀ entry ∈ mentionsOf events, ∀ outer, entry.1 = some outer →
    outer ∈ (blocksOf events).map fun entry => entry.2.1
  blocks : ∀ entry ∈ blocksOf events, ∀ outer, entry.1 = some outer →
    outer ∈ (blocksOf events).map fun entry => entry.2.1

theorem groups_nil : Groups [] {} where
  subgraphs := rfl
  mentions := fun _ mem => absurd mem List.not_mem_nil
  blocks := fun _ mem => absurd mem List.not_mem_nil

theorem update_map {entries : List (Option String × String × Option String)}
    {before after : Option String × String × Option String → Subgraph} {change : Subgraph → Subgraph}
    (changes : ∀ entry ∈ entries, after entry =
      if owner = some (before entry).id then change (before entry) else before entry) :
    update (entries.map before) owner change = entries.map after := by
  cases owner with
  | none =>
    refine List.map_congr_left ?_
    intro entry mem
    rw [changes entry mem, if_neg nofun]
  | some outer =>
    rw [update, List.map_map]
    refine List.map_congr_left ?_
    intro entry mem
    rw [changes entry mem, Function.comp_apply]
    by_cases same : (before entry).id = outer
    · rw [if_pos (beq_iff_eq.2 same), if_pos (congrArg some same.symm)]
    · rw [if_neg (by simpa using same), if_neg (by simpa using Ne.symm same)]

theorem mem_blocksOf_of_inside {done : List Event} (inside : Inside (done.filterMap Construct.ofEvent?) owner) :
    ∀ outer, owner = some outer → outer ∈ (blocksOf done).map fun entry => entry.2.1 := by
  intro outer isOwner
  obtain ⟨place, mem⟩ := inside outer isOwner
  obtain ⟨event, told, isBlock⟩ := List.mem_filterMap.1 mem
  cases event with
  | mention => cases isBlock
  | edge => cases isBlock
  | block around id title firstAt =>
    cases isBlock
    exact List.mem_map.2 ⟨(around, outer, title), List.mem_filterMap.2 ⟨_, told, rfl⟩, rfl⟩

theorem groups_mention (resolves : Resolves events builder) (groups : Groups events builder)
    (inside : Inside (events.filterMap Construct.ofEvent?) owner)
    (accepted : builder.mention owner ref = .ok next) : Groups (events ++ [.mention owner ref]) next := by
  have told : mentionsOf (events ++ [.mention owner ref]) = mentionsOf events ++ [(owner, ref)] := by
    simp [mentionsOf, Event.mention?]
  have blocks : blocksOf (events ++ [.mention owner ref]) = blocksOf events := by
    simp [blocksOf, Event.block?]
  constructor
  · rw [told, blocks]
    rcases mention_taken accepted with ⟨known, declared, found, -, rfl⟩ | ⟨fresh, declared, -, rfl⟩
    · have isKnown : ref.id ∈ firstIds ((mentionsOf events).map Prod.snd) := by
        show ref.id ∈ firstIds (refsOf events)
        rw [← resolves.ids]
        exact List.mem_map.2 ⟨known, List.mem_of_find?_eq_some found, Known.id_of_find? found⟩
      show builder.subgraphs = _
      rw [groups.subgraphs]
      refine List.map_congr_left ?_
      intro entry _
      rw [subgraphOf, subgraphOf, membersOf_known isKnown]
    · have isFresh : ref.id ∉ firstIds ((mentionsOf events).map Prod.snd) := by
        show ref.id ∉ firstIds (refsOf events)
        rw [← resolves.ids]
        exact fresh
      show update builder.subgraphs owner _ = _
      rw [groups.subgraphs]
      refine update_map ?_
      intro entry _
      rw [subgraphOf, membersOf_fresh isFresh]
      by_cases isOwner : owner = some entry.2.1 <;> simp [subgraphOf, isOwner]
  · rw [told, blocks]
    intro entry mem
    rcases List.mem_append.1 mem with before | new
    · exact groups.mentions entry before
    · rw [List.mem_singleton.1 new]
      exact mem_blocksOf_of_inside inside
  · rw [blocks]
    exact groups.blocks

theorem groups_open {place : Position} (groups : Groups events builder)
    (inside : Inside (events.filterMap Construct.ofEvent?) owner) (sound : Sound builder)
    (accepted : builder.open_ owner id title place = .ok next) :
    Groups (events ++ [.block owner id title place]) next := by
  have told : mentionsOf (events ++ [.block owner id title place]) = mentionsOf events := by
    simp [mentionsOf, Event.mention?]
  have blocks : blocksOf (events ++ [.block owner id title place]) =
      blocksOf events ++ [(owner, id, title)] := by
    simp [blocksOf, Event.block?]
  obtain ⟨unopened, rfl⟩ := open_ok accepted
  have fresh : id ∉ (blocksOf events).map fun entry => entry.2.1 := by
    rw [← sound.blocks, groups.subgraphs, List.map_map] at unopened
    exact unopened
  have around := mem_blocksOf_of_inside inside
  -- Nothing told so far stands in a block that is opened only now.
  have noMembers : membersOf (mentionsOf events) id = [] := by
    refine List.eq_nil_iff_forall_not_mem.2 ?_
    intro member mem
    obtain ⟨entry, found, isHome⟩ := Option.map_eq_some_iff.1 (mem_membersOf.1 mem)
    exact fresh (groups.mentions entry (List.mem_of_find?_eq_some found) id isHome)
  have noChildren : childrenOf (blocksOf events) id = [] := by
    refine List.eq_nil_iff_forall_not_mem.2 ?_
    intro child mem
    obtain ⟨title, mem⟩ := mem_childrenOf.1 mem
    exact fresh (groups.blocks _ mem id rfl)
  have opened : builder.subgraphs ++ [⟨id, title, [], []⟩] =
      (blocksOf events ++ [(owner, id, title)]).map (subgraphOf (mentionsOf events) (blocksOf events)) := by
    rw [List.map_append, ← groups.subgraphs, List.map_singleton, subgraphOf]
    simp only [noMembers, noChildren]
  have wider : ∀ outer ∈ (blocksOf events).map (fun entry => entry.2.1),
      outer ∈ (blocksOf events ++ [(owner, id, title)]).map fun entry => entry.2.1 := by
    intro outer mem
    rw [List.map_append]
    exact List.mem_append_left _ mem
  constructor
  · show update (builder.subgraphs ++ [⟨id, title, [], []⟩]) owner _ = _
    rw [told, blocks, opened]
    refine update_map ?_
    intro entry _
    rw [subgraphOf, childrenOf_append]
    by_cases isOwner : owner = some entry.2.1 <;> simp [subgraphOf, isOwner]
  · rw [told, blocks]
    intro entry mem outer isOuter
    exact wider outer (groups.mentions entry mem outer isOuter)
  · rw [blocks]
    intro entry mem outer isOuter
    rcases List.mem_append.1 mem with before | new
    · exact wider outer (groups.blocks entry before outer isOuter)
    · rw [List.mem_singleton.1 new] at isOuter
      exact wider outer (around outer isOuter)

theorem groups_run (grounded : Grounded [] events) (accepted : events.foldlM step {} = .ok builder) :
    Groups events builder := by
  have both : Resolves events builder ∧ Groups events builder := by
    refine run_induction (P := fun events builder => Resolves events builder ∧ Groups events builder)
      ⟨resolves_nil, groups_nil⟩ ?_ grounded accepted
    intro done event builder next _ sound grounded holds taken
    refine ⟨resolves_step holds.1 taken, ?_⟩
    cases event with
    | mention owner ref => exact groups_mention holds.1 holds.2 grounded taken
    | edge edge =>
      have told : mentionsOf (done ++ [.edge edge]) = mentionsOf done := by simp [mentionsOf, Event.mention?]
      have blocks : blocksOf (done ++ [.edge edge]) = blocksOf done := by simp [blocksOf, Event.block?]
      cases taken
      constructor
      · rw [told, blocks]
        exact holds.2.subgraphs
      · rw [told, blocks]
        exact holds.2.mentions
      · rw [blocks]
        exact holds.2.blocks
    | block owner id title place => exact groups_open holds.2 grounded sound taken
  exact both.2

end Builder

namespace Graph

variable {diagram : Diagram} {graph : Graph}

theorem subgraphs_ofDiagram (built : ofDiagram diagram = .ok graph) : graph.subgraphs = diagram.subgraphs := by
  obtain ⟨builder, accepted, -, rfl⟩ := run_of_ofDiagram built
  have groups := Builder.groups_run diagram.grounded_events accepted
  rw [Diagram.subgraphs, ← diagram.filterMap_mention?, ← diagram.filterMap_block?]
  exact groups.subgraphs

/-- No block is also a node, or the graph would have been refused at the end. -/
theorem id_not_mem_ids (built : ofDiagram diagram = .ok graph) {subgraph : Subgraph}
    (mem : subgraph ∈ graph.subgraphs) : subgraph.id ∉ graph.ids := by
  obtain ⟨builder, accepted, clash, rfl⟩ := run_of_ofDiagram built
  have sound := Builder.sound_run Builder.tracks_nil .nil Builder.sound_nil diagram.grounded_events accepted
  have opened : subgraph.id ∈ builder.places.map Prod.fst := sound.blocks ▸ List.mem_map.2 ⟨_, mem, rfl⟩
  obtain ⟨⟨id, place⟩, listed, same⟩ := List.mem_map.1 opened
  have free := List.findSome?_eq_none_iff.1 clash _ listed
  intro isNode
  obtain ⟨node, isNode, sameId⟩ := List.mem_map.1 isNode
  obtain ⟨known, isKnown, rfl⟩ := List.mem_map.1 isNode
  have other := List.find?_eq_none.1 (Option.map_eq_none_iff.1 free) known isKnown
  refine other (beq_iff_eq.2 ?_)
  exact sameId.trans same.symm

/-- The place of an id in a list without repetitions is in front of those behind it. -/
theorem idxOf_lt_of_split {ids front rest : List String} {outer inner : String} (nodup : ids.Nodup)
    (split : ids = front ++ outer :: rest) (mem : inner ∈ rest) : ids.idxOf outer < ids.idxOf inner := by
  subst split
  obtain ⟨-, nodup, apart⟩ := List.nodup_append.1 nodup
  have outerFresh : outer ∉ front := fun before => apart outer before outer List.mem_cons_self rfl
  have innerFresh : inner ∉ front := fun before => apart inner before inner (List.mem_cons_of_mem _ mem) rfl
  have differ : outer ≠ inner := by
    rintro rfl
    exact (List.nodup_cons.1 nodup).1 mem
  rw [List.idxOf_append, List.idxOf_append, if_neg outerFresh, if_neg innerFresh, List.idxOf_cons_self,
    List.idxOf_cons_ne _ differ]
  omega

theorem Grouped.behind (grouped : graph.Grouped) {front rest : List Subgraph} {subgraph : Subgraph}
    (split : graph.subgraphs = front ++ subgraph :: rest) :
    ∀ child ∈ subgraph.children, child ∈ rest.map Subgraph.id := by
  have nested := grouped.nested
  rw [split] at nested
  exact (nested_of_append nested).1

theorem Grouped.idxOf_lt (grouped : graph.Grouped) {outer inner : String} (isParent : graph.IsParent outer inner) :
    (graph.subgraphs.map Subgraph.id).idxOf outer < (graph.subgraphs.map Subgraph.id).idxOf inner := by
  obtain ⟨subgraph, mem, rfl, isChild⟩ := isParent
  obtain ⟨front, rest, split⟩ := List.append_of_mem mem
  have ids : graph.subgraphs.map Subgraph.id = front.map Subgraph.id ++ subgraph.id :: rest.map Subgraph.id := by
    rw [split, List.map_append, List.map_cons]
  exact idxOf_lt_of_split grouped.distinct ids (grouped.behind split inner isChild)

/-- The way from a subgraph to its children leads on in the list, so it never comes back. -/
theorem Grouped.acyclic (grouped : graph.Grouped) (id : String) : ¬Relation.TransGen graph.IsParent id id := by
  intro returns
  have forward (outer inner : String) (path : Relation.TransGen graph.IsParent outer inner) :
      (graph.subgraphs.map Subgraph.id).idxOf outer < (graph.subgraphs.map Subgraph.id).idxOf inner := by
    induction path with
    | single isParent => exact grouped.idxOf_lt isParent
    | tail _ isParent ih => exact Nat.lt_trans ih (grouped.idxOf_lt isParent)
  exact Nat.lt_irrefl _ (forward id id returns)

theorem ids_blocks (built : ofDiagram diagram = .ok graph) :
    graph.subgraphs.map Subgraph.id = diagram.blocks.map fun entry => entry.2.1 := by
  rw [subgraphs_ofDiagram built, Diagram.subgraphs, List.map_map]
  rfl

theorem parts_of_mem (built : ofDiagram diagram = .ok graph) {subgraph : Subgraph}
    (mem : subgraph ∈ graph.subgraphs) :
    subgraph.members = membersOf diagram.mentions subgraph.id ∧
      subgraph.children = childrenOf diagram.blocks subgraph.id := by
  rw [subgraphs_ofDiagram built] at mem
  obtain ⟨entry, -, rfl⟩ := List.mem_map.1 mem
  exact ⟨rfl, rfl⟩

/-- Lists that are picked from one list by a key do not share an item. -/
theorem nodup_flatMap_of_key {α : Type} {subgraphs : List Subgraph} (pick : Subgraph → List α)
    (distinct : (subgraphs.map Subgraph.id).Nodup) (nodup : ∀ subgraph ∈ subgraphs, (pick subgraph).Nodup)
    (key : ∀ first ∈ subgraphs, ∀ second ∈ subgraphs, ∀ item ∈ pick first, item ∈ pick second →
      first.id = second.id) : (subgraphs.flatMap pick).Nodup := by
  refine List.nodup_flatMap.2 ⟨nodup, ?_⟩
  refine (List.pairwise_map.1 distinct).imp_of_mem ?_
  intro first second isFirst isSecond differ item inFirst inSecond
  exact differ (key first isFirst second isSecond item inFirst inSecond)

/-- No subgraph stands in two others, since the block directly around it is one. -/
theorem nodup_children (built : ofDiagram diagram = .ok graph) :
    (graph.subgraphs.flatMap Subgraph.children).Nodup := by
  have grouped := grouped_ofDiagram built
  have nodupBlocks : (diagram.blocks.map fun entry => entry.2.1).Nodup := ids_blocks built ▸ grouped.distinct
  refine nodup_flatMap_of_key _ grouped.distinct ?_ ?_
  · intro subgraph mem
    rw [(parts_of_mem built mem).2]
    exact List.Nodup.sublist (List.filter_sublist.map _) nodupBlocks
  · intro first isFirst second isSecond child inFirst inSecond
    rw [(parts_of_mem built isFirst).2] at inFirst
    rw [(parts_of_mem built isSecond).2] at inSecond
    obtain ⟨title, inFirst⟩ := mem_childrenOf.1 inFirst
    obtain ⟨other, inSecond⟩ := mem_childrenOf.1 inSecond
    have same := List.inj_on_of_nodup_map nodupBlocks inFirst inSecond rfl
    exact Option.some.inj (congrArg Prod.fst same)

/-- No node belongs to two subgraphs, since its first mention is one. -/
theorem nodup_members (built : ofDiagram diagram = .ok graph) :
    (graph.subgraphs.flatMap Subgraph.members).Nodup := by
  have nodupIds := (wellFormed_ofDiagram built).1
  refine nodup_flatMap_of_key _ (grouped_ofDiagram built).distinct ?_ ?_
  · intro subgraph mem
    rw [(parts_of_mem built mem).1, membersOf, diagram.map_mentions, ← ids_eq_firstIds built]
    exact nodupIds.filter _
  · intro first isFirst second isSecond id inFirst inSecond
    rw [(parts_of_mem built isFirst).1] at inFirst
    rw [(parts_of_mem built isSecond).1] at inSecond
    have same := (mem_membersOf.1 inFirst).symm.trans (mem_membersOf.1 inSecond)
    exact Option.some.inj (Option.some.inj same)

theorem forest_ofDiagram (built : ofDiagram diagram = .ok graph) : graph.Forest diagram := by
  have grouped := grouped_ofDiagram built
  constructor
  · exact ids_blocks built
  · exact grouped.distinct
  · exact fun subgraph mem => id_not_mem_ids built mem
  · exact fun front subgraph rest split => grouped.behind split
  · intro subgraph mem child
    rw [(parts_of_mem built mem).2]
    exact mem_childrenOf
  · exact nodup_children built
  · exact grouped.acyclic
  · intro subgraph mem id
    rw [(parts_of_mem built mem).1]
    exact mem_membersOf
  · exact nodup_members built
  · exact grouped.members

/-- A block in a block, with a node that is mentioned in both. -/
theorem forest_ofDiagram_nested :
    ∃ diagram graph, diagram.statements =
        [.subgraph "s" none
          [.node ⟨"A", none, none, default⟩ default,
            .subgraph "t" none [.node ⟨"A", none, none, default⟩ default] default] default] ∧
      ofDiagram diagram = .ok graph ∧ graph.Forest diagram :=
  ⟨⟨.TD, default, _⟩, _, rfl, rfl, forest_ofDiagram rfl⟩

end Graph
end Flowchart
