import Mathlib.Order.Bounds.Basic
import Flowchart.Proofs.Graph.Ranks

/-!
Ranks are breadth-first depths. A node that can be reached from the nodes that nothing leads to has the
least number of edges on a walk from one of them, and any other node the least number of edges on a walk
from the earliest node that leads to it and is not reached from them either.
-/
namespace Flowchart.Graph

/-- Some edge leads from the one node to the other. -/
def Joined (graph : Graph) (source target : String) : Prop :=
  ∃ edge ∈ graph.edges, edge.source = source ∧ edge.target = target

/-- A walk along a number of edges. -/
inductive Walk (graph : Graph) (first : String) : Nat → String → Prop where
  | refl : Walk graph first 0 first
  | step {length : Nat} {id next : String} :
      Walk graph first length id → graph.Joined id next → Walk graph first (length + 1) next

/-- Some walk leads from the one node to the other. -/
def Reaches (graph : Graph) (first id : String) : Prop :=
  ∃ length, graph.Walk first length id

/-- A node that no edge from another node leads to. -/
def IsRoot (graph : Graph) (id : String) : Prop :=
  id ∈ graph.ids ∧ ∀ other, graph.Joined other id → other = id

def FromRoot (graph : Graph) (id : String) : Prop :=
  ∃ root, graph.IsRoot root ∧ graph.Reaches root id

/-- The least number of edges on a walk to a node from one of those that are singled out. -/
def IsDepth (graph : Graph) (starts : String → Prop) (id : String) (depth : Nat) : Prop :=
  IsLeast {length | ∃ first, starts first ∧ graph.Walk first length id} depth

/-- The earliest of some nodes that has a property. -/
def IsEarliest (ids : List String) (p : String → Prop) (id : String) : Prop :=
  ∃ earlier later, ids = earlier ++ id :: later ∧ p id ∧ ∀ other ∈ earlier, ¬p other

/-- What the ranks of a graph are. -/
structure BreadthFirst (graph : Graph) : Prop where
  listed : graph.ranks.map Prod.fst = graph.ids
  single : ∀ id ∈ graph.ids, ∃! rank, (id, rank) ∈ graph.ranks
  fromRoots : ∀ id rank, (id, rank) ∈ graph.ranks → graph.FromRoot id → graph.IsDepth graph.IsRoot id rank
  fromOrigin : ∀ id rank, (id, rank) ∈ graph.ranks → ¬graph.FromRoot id →
    ∃ first, IsEarliest graph.ids (fun other => ¬graph.FromRoot other ∧ graph.Reaches other id) first ∧
      graph.IsDepth (· = first) id rank
  parent : ∀ id rank, (id, rank + 1) ∈ graph.ranks → ∃ before, graph.Joined before id ∧ (before, rank) ∈ graph.ranks
  gapless : ∀ id rank, (id, rank) ∈ graph.ranks → ∀ lower ≤ rank, ∃ other, (other, lower) ∈ graph.ranks

variable {graph : Graph} {ids roots pool wave unranked : List String} {id before first next : String}
  {rank length : Nat}

theorem mem_targetsOf : next ∈ graph.targetsOf ids ↔ ∃ id ∈ ids, graph.Joined id next := by
  simp only [targetsOf, List.mem_map, List.mem_filter, List.contains_iff_mem, Joined]
  constructor
  · rintro ⟨edge, ⟨isEdge, isSource⟩, rfl⟩
    exact ⟨edge.source, isSource, edge, isEdge, rfl, rfl⟩
  · rintro ⟨_, isSource, edge, isEdge, rfl, rfl⟩
    exact ⟨edge, ⟨isEdge, isSource⟩, rfl⟩

theorem mem_sources : id ∈ graph.sources ↔ graph.IsRoot id := by
  simp only [sources, List.mem_filter, Bool.not_eq_true', List.any_eq_false, Bool.and_eq_true, beq_iff_eq,
    Edge.isLoop, Bool.not_eq_true', beq_eq_false_iff_ne, not_and, not_not, IsRoot, Joined]
  refine and_congr_right fun _ => ⟨?_, ?_⟩
  · rintro loops _ ⟨edge, isEdge, rfl, rfl⟩
    exact loops edge isEdge rfl
  · rintro loops edge isEdge rfl
    exact loops _ ⟨edge, isEdge, rfl, rfl⟩

/-! ### One spread -/

theorem rank_lt_of_mem_spread (mem : (id, length) ∈ graph.spread rank wave unranked) : rank < length := by
  fun_induction spread graph rank wave unranked with
  | case1 => cases mem
  | case2 rank wave unranked targets next some ih =>
    rcases List.mem_append.1 mem with now | later
    · obtain ⟨_, _, same⟩ := List.mem_map.1 now
      cases same
      exact Nat.lt_succ_self rank
    · exact Nat.lt_of_succ_lt (ih later)

theorem mem_spread_of_wave (isWave : before ∈ wave) (joined : graph.Joined before id) (mem : id ∈ unranked) :
    (id, rank + 1) ∈ graph.spread rank wave unranked := by
  have isTarget : id ∈ among (graph.targetsOf wave) unranked :=
    mem_among.2 ⟨mem, mem_targetsOf.2 ⟨before, isWave, joined⟩⟩
  rw [spread, dif_neg (List.ne_nil_of_mem isTarget)]
  exact List.mem_append_left _ (List.mem_map.2 ⟨id, isTarget, rfl⟩)

/-- An unranked node behind a node of the spread is ranked by the same spread, at most one rank below. -/
theorem mem_spread_of_mem (isRanked : (before, length) ∈ graph.spread rank wave unranked)
    (joined : graph.Joined before id) (mem : id ∈ unranked) :
    ∃ depth ≤ length + 1, (id, depth) ∈ graph.spread rank wave unranked := by
  fun_induction spread graph rank wave unranked with
  | case1 => cases isRanked
  | case2 rank wave unranked targets next some ih =>
    by_cases isTarget : id ∈ targets
    · have now : (id, rank + 1) ∈ next.map (·, rank + 1) :=
        List.mem_map.2 ⟨id, mem_among.2 ⟨mem, isTarget⟩, rfl⟩
      have isFound : (before, length) ∈ graph.spread rank wave unranked := by
        rw [spread, dif_neg some]
        exact isRanked
      have bound := rank_lt_of_mem_spread isFound
      exact ⟨rank + 1, by omega, List.mem_append_left _ now⟩
    · have left : id ∈ outside targets unranked := mem_outside.2 ⟨mem, isTarget⟩
      rcases List.mem_append.1 isRanked with now | later
      · obtain ⟨_, isNext, same⟩ := List.mem_map.1 now
        cases same
        exact ⟨rank + 1 + 1, Nat.le_refl _, List.mem_append_right _ (mem_spread_of_wave isNext joined left)⟩
      · obtain ⟨depth, bound, found⟩ := ih later left
        exact ⟨depth, bound, List.mem_append_right _ found⟩

/-- A node of the spread stands behind the wave or behind a node of the spread, one rank below. -/
theorem parent_of_mem_spread (mem : (id, length) ∈ graph.spread rank wave unranked) :
    ∃ before depth, graph.Joined before id ∧ length = depth + 1 ∧
      (before ∈ wave ∧ depth = rank ∨ (before, depth) ∈ graph.spread rank wave unranked) := by
  fun_induction spread graph rank wave unranked with
  | case1 => cases mem
  | case2 rank wave unranked targets next some ih =>
    rcases List.mem_append.1 mem with now | later
    · obtain ⟨_, isNext, same⟩ := List.mem_map.1 now
      cases same
      obtain ⟨before, isWave, joined⟩ := mem_targetsOf.1 (mem_among.1 isNext).2
      exact ⟨before, rank, joined, rfl, .inl ⟨isWave, rfl⟩⟩
    · obtain ⟨before, depth, joined, isNext, ⟨isWave, rfl⟩ | found⟩ := ih later
      · exact ⟨before, rank + 1, joined, isNext,
          .inr (List.mem_append_left _ (List.mem_map.2 ⟨before, isWave, rfl⟩))⟩
      · exact ⟨before, depth, joined, isNext, .inr (List.mem_append_right _ found)⟩

/-! ### A spread with the nodes it starts from -/

/-- The nodes that a spread starts from, at rank zero, and those that it ranks. -/
def growth (graph : Graph) (roots pool : List String) : List (String × Nat) :=
  roots.map (·, 0) ++ graph.spread 0 roots pool

theorem mem_growth_zero : (id, 0) ∈ graph.growth roots pool ↔ id ∈ roots := by
  rw [growth, List.mem_append, List.mem_map]
  constructor
  · rintro (⟨_, isRoot, same⟩ | later)
    · cases same
      exact isRoot
    · exact absurd (rank_lt_of_mem_spread later) (Nat.lt_irrefl 0)
  · exact fun isRoot => .inl ⟨id, isRoot, rfl⟩

theorem mem_growth_succ : (id, rank + 1) ∈ graph.growth roots pool ↔ (id, rank + 1) ∈ graph.spread 0 roots pool := by
  rw [growth, List.mem_append, List.mem_map]
  constructor
  · rintro (⟨_, _, same⟩ | later)
    · cases same
    · exact later
  · exact .inr

theorem growth_parent (mem : (id, rank + 1) ∈ graph.growth roots pool) :
    ∃ before, graph.Joined before id ∧ (before, rank) ∈ graph.growth roots pool := by
  obtain ⟨before, depth, joined, isNext, ⟨isRoot, rfl⟩ | found⟩ := parent_of_mem_spread (mem_growth_succ.1 mem)
  · cases Nat.succ.inj isNext
    exact ⟨before, joined, mem_growth_zero.2 isRoot⟩
  · cases Nat.succ.inj isNext
    exact ⟨before, joined, List.mem_append_right _ found⟩

theorem growth_next (mem : (before, rank) ∈ graph.growth roots pool) (joined : graph.Joined before id)
    (inside : id ∈ roots ∨ id ∈ pool) : ∃ depth ≤ rank + 1, (id, depth) ∈ graph.growth roots pool := by
  rcases inside with isRoot | isPool
  · exact ⟨0, Nat.zero_le _, mem_growth_zero.2 isRoot⟩
  · cases rank with
    | zero =>
      have found : (id, 0 + 1) ∈ graph.spread 0 roots pool :=
        mem_spread_of_wave (mem_growth_zero.1 mem) joined isPool
      exact ⟨1, Nat.le_refl _, List.mem_append_right _ found⟩
    | succ rank =>
      obtain ⟨depth, bound, found⟩ := mem_spread_of_mem (mem_growth_succ.1 mem) joined isPool
      exact ⟨depth, bound, List.mem_append_right _ found⟩

theorem walk_of_mem_growth (mem : (id, rank) ∈ graph.growth roots pool) :
    ∃ root ∈ roots, graph.Walk root rank id := by
  induction rank generalizing id with
  | zero => exact ⟨id, mem_growth_zero.1 mem, .refl⟩
  | succ rank ih =>
    obtain ⟨before, joined, found⟩ := growth_parent mem
    obtain ⟨root, isRoot, walk⟩ := ih found
    exact ⟨root, isRoot, .step walk joined⟩

/-- Nothing leads into the nodes that are still to be ranked from outside them. -/
def Sealed (graph : Graph) (open_ : String → Prop) : Prop :=
  ∀ before id, graph.Joined before id → open_ id → open_ before

/-- Walks to a node that is still to be ranked are no shorter than the rank that it is given. -/
theorem mem_growth_of_walk (isSealed : graph.Sealed fun id => id ∈ roots ∨ id ∈ pool) (isRoot : first ∈ roots)
    (walk : graph.Walk first length id) (inside : id ∈ roots ∨ id ∈ pool) :
    ∃ depth ≤ length, (id, depth) ∈ graph.growth roots pool := by
  induction walk with
  | refl => exact ⟨0, Nat.le_refl _, mem_growth_zero.2 isRoot⟩
  | step _ joined ih =>
    obtain ⟨depth, bound, found⟩ := ih (isSealed _ _ joined inside)
    obtain ⟨next, least, reached⟩ := growth_next found joined inside
    exact ⟨next, Nat.le_trans least (Nat.succ_le_succ bound), reached⟩

theorem eq_of_mem_ranked {ranked : List (String × Nat)} {other : Nat} (nodup : (ranked.map Prod.fst).Nodup)
    (mem : (id, rank) ∈ ranked) (same : (id, other) ∈ ranked) : rank = other :=
  Option.some.inj ((lookup_of_mem nodup mem).symm.trans (lookup_of_mem nodup same))

theorem nodup_growth (nodup : roots.Nodup) (fresh : ∀ id ∈ pool, id ∉ roots) (distinct : pool.Nodup) :
    ((graph.growth roots pool).map Prod.fst).Nodup := by
  refine nodup_append_ranked ?_ (nodup_spread distinct _ _) ?_
  · rwa [map_fst_map]
  · intro id mem
    rw [map_fst_map]
    exact fresh id (ids_spread _ _ _ _ id mem)

theorem inside_of_mem_growth (mem : (id, rank) ∈ graph.growth roots pool) : id ∈ roots ∨ id ∈ pool := by
  rcases List.mem_append.1 mem with now | later
  · obtain ⟨_, isRoot, same⟩ := List.mem_map.1 now
    cases same
    exact .inl isRoot
  · exact .inr (ids_spread _ _ _ _ id (List.mem_map.2 ⟨_, later, rfl⟩))

theorem isDepth_of_mem_growth (isSealed : graph.Sealed fun id => id ∈ roots ∨ id ∈ pool)
    (nodup : ((graph.growth roots pool).map Prod.fst).Nodup) (mem : (id, rank) ∈ graph.growth roots pool) :
    graph.IsDepth (· ∈ roots) id rank := by
  refine ⟨walk_of_mem_growth mem, ?_⟩
  rintro length ⟨root, isRoot, walk⟩
  obtain ⟨depth, bound, found⟩ := mem_growth_of_walk isSealed isRoot walk (inside_of_mem_growth mem)
  rwa [eq_of_mem_ranked nodup mem found]

theorem mem_map_growth (mem : id ∈ (graph.growth roots pool).map Prod.fst) :
    ∃ rank, (id, rank) ∈ graph.growth roots pool := by
  obtain ⟨⟨_, rank⟩, found, rfl⟩ := List.mem_map.1 mem
  exact ⟨rank, found⟩

theorem ranked_iff (fresh : id ∉ roots) :
    id ∈ (graph.growth roots pool).map Prod.fst ↔ id ∈ (graph.spread 0 roots pool).map Prod.fst := by
  rw [growth, List.map_append, map_fst_map, List.mem_append]
  exact or_iff_right fresh

/-- A spread ranks the nodes that some walk leads to from where it starts. -/
theorem reaches_iff_ranked (isSealed : graph.Sealed fun id => id ∈ roots ∨ id ∈ pool) (isPool : id ∈ pool)
    (fresh : id ∉ roots) :
    (∃ root ∈ roots, graph.Reaches root id) ↔ id ∈ (graph.spread 0 roots pool).map Prod.fst := by
  rw [← ranked_iff fresh]
  constructor
  · rintro ⟨root, isRoot, length, walk⟩
    obtain ⟨depth, -, found⟩ := mem_growth_of_walk isSealed isRoot walk (.inr isPool)
    exact List.mem_map.2 ⟨_, found, rfl⟩
  · intro mem
    obtain ⟨rank, found⟩ := mem_map_growth mem
    obtain ⟨root, isRoot, walk⟩ := walk_of_mem_growth found
    exact ⟨root, isRoot, rank, walk⟩

/-- What a spread leaves unranked is not led to from outside either. -/
theorem isSealed_without (isSealed : graph.Sealed fun id => id ∈ roots ∨ id ∈ pool)
    (fresh : ∀ id ∈ pool, id ∉ roots) : graph.Sealed (· ∈ without (graph.spread 0 roots pool) pool) := by
  intro before id joined left
  obtain ⟨isPool, unreached⟩ := mem_without.1 left
  rw [← ranked_iff (fresh id isPool)] at unreached
  have notGrown : before ∉ (graph.growth roots pool).map Prod.fst := by
    intro grown
    obtain ⟨rank, found⟩ := mem_map_growth grown
    obtain ⟨depth, -, reached⟩ := growth_next found joined (.inr isPool)
    exact unreached (List.mem_map.2 ⟨_, reached, rfl⟩)
  rcases isSealed before id joined (.inr isPool) with isRoot | isPool
  · exact absurd (List.mem_map.2 ⟨_, mem_growth_zero.2 isRoot, rfl⟩) notGrown
  · exact mem_without.2 ⟨isPool, mt (ranked_iff (fresh before isPool)).2 notGrown⟩

/-! ### Spreads that start on cycles -/

theorem Reaches.trans {middle : String} (front : graph.Reaches first middle) (back : graph.Reaches middle id) :
    graph.Reaches first id := by
  obtain ⟨_, behind⟩ := back
  induction behind with
  | refl => exact front
  | step _ joined ih =>
    obtain ⟨length, walk⟩ := ih
    exact ⟨length + 1, .step walk joined⟩

theorem IsEarliest.cons {p : String → Prop} (earliest : IsEarliest ids p id) (other : ¬p first) :
    IsEarliest (first :: ids) p id := by
  obtain ⟨earlier, later, rfl, found, none⟩ := earliest
  exact ⟨first :: earlier, later, rfl, found, List.forall_mem_cons.2 ⟨other, none⟩⟩

/-- What was left out beforehand does not matter if none of it has the property. -/
theorem IsEarliest.of_filter {p : String → Prop} {keep : String → Bool} (kept : ∀ id ∈ ids, p id → keep id = true)
    (earliest : IsEarliest (ids.filter keep) p id) : IsEarliest ids p id := by
  induction ids with
  | nil => exact earliest
  | cons first rest ih =>
    have behind := ih fun id mem => kept id (List.mem_cons_of_mem _ mem)
    by_cases isKept : keep first = true
    · rw [List.filter_cons_of_pos isKept] at earliest
      obtain ⟨earlier, later, split, found, none⟩ := earliest
      cases earlier with
      | nil =>
        obtain ⟨rfl, -⟩ := List.cons.inj split
        exact ⟨[], rest, rfl, found, List.forall_mem_nil _⟩
      | cons other earlier =>
        obtain ⟨rfl, tail⟩ := List.cons.inj split
        obtain ⟨notFirst, none⟩ := List.forall_mem_cons.1 none
        exact (behind ⟨earlier, later, tail, found, none⟩).cons notFirst
    · rw [List.filter_cons_of_neg isKept] at earliest
      exact (behind earliest).cons fun found => isKept (kept first List.mem_cons_self found)

/-- A node that only cycles lead to has its depth below the earliest of the nodes that lead to it. -/
theorem isDepth_of_mem_rankCycles (nodup : unranked.Nodup) (isSealed : graph.Sealed (· ∈ unranked))
    (mem : (id, rank) ∈ graph.rankCycles unranked) :
    ∃ first, IsEarliest unranked (graph.Reaches · id) first ∧ graph.IsDepth (· = first) id rank := by
  fun_induction rankCycles graph unranked with
  | case1 => cases mem
  | case2 first rest reached ih =>
    obtain ⟨notRest, distinct⟩ := List.nodup_cons.1 nodup
    have fresh : ∀ other ∈ rest, other ∉ [first] := by
      rintro other isRest same
      exact notRest (List.mem_singleton.1 same ▸ isRest)
    have around : graph.Sealed fun id => id ∈ [first] ∨ id ∈ rest := by simpa [Sealed] using isSealed
    rcases List.mem_append.1 (show (id, rank) ∈ graph.growth [first] rest ++ _ from mem) with now | later
    · have unique : ((graph.growth [first] rest).map Prod.fst).Nodup :=
        nodup_growth (List.pairwise_singleton _ first) fresh distinct
      have depth := isDepth_of_mem_growth around unique now
      obtain ⟨root, isRoot, walk⟩ := walk_of_mem_growth now
      cases List.mem_singleton.1 isRoot
      refine ⟨first, ⟨[], rest, rfl, ⟨rank, walk⟩, List.forall_mem_nil _⟩, ?_⟩
      simpa only [List.mem_singleton] using depth
    · obtain ⟨isRest, unreached⟩ := mem_without.1
        ((mem_rankCycles _ _ id).1 (List.mem_map.2 ⟨_, later, rfl⟩))
      have notReached (other : String) (leads : graph.Reaches first other) : ¬graph.Reaches other id :=
        fun reaches => unreached ((reaches_iff_ranked around isRest (fresh id isRest)).1
          ⟨first, List.mem_singleton_self first, leads.trans reaches⟩)
      obtain ⟨origin, earliest, depth⟩ :=
        ih (distinct.sublist List.filter_sublist) (isSealed_without around fresh) later
      refine ⟨origin, .cons (.of_filter ?_ earliest) (notReached first ⟨0, .refl⟩), depth⟩
      intro other isRest found
      have leads : ¬∃ root ∈ [first], graph.Reaches root other := by
        rintro ⟨root, isRoot, reaches⟩
        cases List.mem_singleton.1 isRoot
        exact notReached other reaches found
      rw [reaches_iff_ranked around isRest (fresh other isRest)] at leads
      simpa using leads

/-! ### The ranks of a graph -/

theorem fromRoot_iff : graph.FromRoot id ↔ ∃ root ∈ graph.sources, graph.Reaches root id := by
  simp only [FromRoot, mem_sources]

/-- The nodes that are left when the roots have rank zero. -/
def inner (graph : Graph) : List String :=
  without (graph.sources.map (·, 0)) graph.ids

theorem mem_inner : id ∈ graph.inner ↔ id ∈ graph.ids ∧ id ∉ graph.sources := by
  rw [inner, mem_without, map_fst_map]

theorem sealed_ids (wellFormed : graph.WellFormed) : graph.Sealed fun id => id ∈ graph.sources ∨ id ∈ graph.inner := by
  rintro _ _ ⟨edge, isEdge, rfl, rfl⟩ _
  have isNode := (wellFormed.2 edge isEdge).1
  by_cases isRoot : edge.source ∈ graph.sources
  · exact .inl isRoot
  · exact .inr (mem_inner.2 ⟨isNode, isRoot⟩)

/-- The nodes that no root leads to. -/
def enclosed (graph : Graph) : List String :=
  without (graph.spread 0 graph.sources graph.inner) graph.inner

theorem rankOrder_eq (graph : Graph) :
    graph.rankOrder = graph.growth graph.sources graph.inner ++ graph.rankCycles graph.enclosed :=
  rfl

theorem mem_enclosed (wellFormed : graph.WellFormed) : id ∈ graph.enclosed ↔ id ∈ graph.ids ∧ ¬graph.FromRoot id := by
  rw [enclosed, mem_without, mem_inner, fromRoot_iff, and_assoc]
  refine and_congr_right fun isNode => ?_
  constructor
  · rintro ⟨notRoot, unreached⟩ reached
    exact unreached ((reaches_iff_ranked (sealed_ids wellFormed) (mem_inner.2 ⟨isNode, notRoot⟩) notRoot).1 reached)
  · intro unreached
    have notRoot : id ∉ graph.sources := fun isRoot => unreached ⟨id, isRoot, 0, .refl⟩
    refine ⟨notRoot, fun reached => unreached ?_⟩
    exact (reaches_iff_ranked (sealed_ids wellFormed) (mem_inner.2 ⟨isNode, notRoot⟩) notRoot).2 reached

theorem mem_ranks (wellFormed : graph.WellFormed) : (id, rank) ∈ graph.ranks ↔ (id, rank) ∈ graph.rankOrder := by
  have isRank (isNode : id ∈ graph.ids) : graph.rank id = rank ↔ (id, rank) ∈ graph.rankOrder :=
    rank_eq_iff wellFormed.1 isNode
  have listed : (id, rank) ∈ graph.ranks ↔ id ∈ graph.ids ∧ graph.rank id = rank := by
    simp only [ranks, List.mem_map, Prod.mk.injEq, Graph.rank]
    constructor
    · rintro ⟨_, isNode, rfl, same⟩
      exact ⟨isNode, same⟩
    · rintro ⟨isNode, same⟩
      exact ⟨id, isNode, rfl, same⟩
  rw [listed]
  constructor
  · rintro ⟨isNode, same⟩
    exact (isRank isNode).1 same
  · intro found
    have isNode := (mem_rankOrder graph id).1 (List.mem_map.2 ⟨_, found, rfl⟩)
    exact ⟨isNode, (isRank isNode).2 found⟩

theorem parent_of_mem_rankCycles (mem : (id, rank + 1) ∈ graph.rankCycles unranked) :
    ∃ before, graph.Joined before id ∧ (before, rank) ∈ graph.rankCycles unranked := by
  fun_induction rankCycles graph unranked with
  | case1 => cases mem
  | case2 first rest reached ih =>
    rcases List.mem_append.1 (show (id, rank + 1) ∈ graph.growth [first] rest ++ _ from mem) with now | later
    · obtain ⟨before, joined, found⟩ := growth_parent now
      exact ⟨before, joined, List.mem_append_left _ found⟩
    · obtain ⟨before, joined, found⟩ := ih later
      exact ⟨before, joined, List.mem_append_right _ found⟩

theorem parent_of_mem_rankOrder (mem : (id, rank + 1) ∈ graph.rankOrder) :
    ∃ before, graph.Joined before id ∧ (before, rank) ∈ graph.rankOrder := by
  rw [rankOrder_eq] at mem ⊢
  rcases List.mem_append.1 mem with now | later
  · obtain ⟨before, joined, found⟩ := growth_parent now
    exact ⟨before, joined, List.mem_append_left _ found⟩
  · obtain ⟨before, joined, found⟩ := parent_of_mem_rankCycles later
    exact ⟨before, joined, List.mem_append_right _ found⟩

theorem nodup_inner (wellFormed : graph.WellFormed) : graph.inner.Nodup :=
  wellFormed.1.sublist List.filter_sublist

/-- A ranked node is ranked by the spread from the roots if one of them leads to it, and behind it otherwise. -/
theorem mem_rankOrder_cases (wellFormed : graph.WellFormed) (mem : (id, rank) ∈ graph.rankOrder) :
    graph.FromRoot id ∧ (id, rank) ∈ graph.growth graph.sources graph.inner ∨
      ¬graph.FromRoot id ∧ (id, rank) ∈ graph.rankCycles graph.enclosed := by
  rw [rankOrder_eq] at mem
  rcases List.mem_append.1 mem with now | later
  · obtain ⟨root, isRoot, walk⟩ := walk_of_mem_growth now
    exact .inl ⟨fromRoot_iff.2 ⟨root, isRoot, rank, walk⟩, now⟩
  · have left := (mem_rankCycles graph graph.enclosed id).1 (List.mem_map.2 ⟨_, later, rfl⟩)
    exact .inr ⟨((mem_enclosed wellFormed).1 left).2, later⟩

theorem isDepth_of_fromRoot (wellFormed : graph.WellFormed) (mem : (id, rank) ∈ graph.rankOrder)
    (fromRoot : graph.FromRoot id) : graph.IsDepth graph.IsRoot id rank := by
  rcases mem_rankOrder_cases wellFormed mem with ⟨-, now⟩ | ⟨unreached, -⟩
  · have fresh : ∀ id ∈ graph.inner, id ∉ graph.sources := fun id mem => (mem_inner.1 mem).2
    have distinct : graph.sources.Nodup := wellFormed.1.sublist List.filter_sublist
    have depth := isDepth_of_mem_growth (sealed_ids wellFormed)
      (nodup_growth distinct fresh (nodup_inner wellFormed)) now
    simpa only [mem_sources] using depth
  · exact absurd fromRoot unreached

theorem isDepth_of_enclosed (wellFormed : graph.WellFormed) (mem : (id, rank) ∈ graph.rankOrder)
    (unreached : ¬graph.FromRoot id) :
    ∃ first, IsEarliest graph.ids (fun other => ¬graph.FromRoot other ∧ graph.Reaches other id) first ∧
      graph.IsDepth (· = first) id rank := by
  rcases mem_rankOrder_cases wellFormed mem with ⟨fromRoot, -⟩ | ⟨-, later⟩
  · exact absurd fromRoot unreached
  · have isSealed : graph.Sealed (· ∈ graph.enclosed) :=
      isSealed_without (sealed_ids wellFormed) fun id mem => (mem_inner.1 mem).2
    have distinct : graph.enclosed.Nodup := (nodup_inner wellFormed).sublist List.filter_sublist
    obtain ⟨first, ⟨earlier, after, split, leads, none⟩, depth⟩ := isDepth_of_mem_rankCycles distinct isSealed later
    have left : first ∈ graph.enclosed := by simp [split]
    refine ⟨first, .of_filter ?_ (.of_filter ?_ ⟨earlier, after, split, ⟨?_, leads⟩, ?_⟩), depth⟩
    · intro other isNode found
      exact (List.mem_filter.1 (List.mem_filter.1 ((mem_enclosed wellFormed).2 ⟨isNode, found.1⟩)).1).2
    · intro other isInner found
      have isNode := (mem_inner.1 isInner).1
      exact (List.mem_filter.1 ((mem_enclosed wellFormed).2 ⟨isNode, found.1⟩)).2
    · exact ((mem_enclosed wellFormed).1 left).2
    · exact fun other isEarlier found => none other isEarlier found.2

/-- Each node has one rank, its breadth-first depth, and no rank below it is left out. -/
theorem breadthFirst_ranks (wellFormed : graph.WellFormed) : graph.BreadthFirst := by
  constructor
  · rw [ranks, List.map_map]
    exact List.map_id graph.ids
  · intro id isNode
    refine ⟨graph.rank id, (mem_ranks wellFormed).2 ((rank_eq_iff wellFormed.1 isNode).1 rfl), ?_⟩
    intro rank mem
    exact ((rank_eq_iff wellFormed.1 isNode).2 ((mem_ranks wellFormed).1 mem)).symm
  · exact fun id rank mem => isDepth_of_fromRoot wellFormed ((mem_ranks wellFormed).1 mem)
  · exact fun id rank mem => isDepth_of_enclosed wellFormed ((mem_ranks wellFormed).1 mem)
  · simp only [mem_ranks wellFormed]
    exact fun id rank mem => parent_of_mem_rankOrder mem
  · simp only [mem_ranks wellFormed]
    intro id rank mem lower below
    rcases Nat.lt_or_eq_of_le below with less | rfl
    · exact gapless_rankOrder graph id rank mem lower (Nat.zero_le _) less
    · exact ⟨id, mem⟩

/-- Two nodes that lead to each other beside a root, and a node that both lead to. -/
def besideCycle : Graph :=
  { nodes := [⟨"d", "d", .rectangle⟩, ⟨"a", "a", .rectangle⟩, ⟨"c", "c", .circle⟩, ⟨"b", "b", .rounded⟩]
    edges := [{ source := "c", target := "d" }, { source := "d", target := "c" }, { source := "c", target := "b" },
      { source := "a", target := "a" }, { source := "a", target := "b" }] }

theorem breadthFirst_ranks_besideCycle : besideCycle.WellFormed ∧ besideCycle.BreadthFirst := by
  have wellFormed : besideCycle.WellFormed := ⟨by decide, by decide⟩
  exact ⟨wellFormed, breadthFirst_ranks wellFormed⟩

end Flowchart.Graph
