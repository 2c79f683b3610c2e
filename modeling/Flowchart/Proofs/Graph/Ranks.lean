import Flowchart.Graph.Rank

/-!
Every node has one rank, and no rank is left out: whatever has a rank stands behind nodes of all smaller
ranks. Edges whose ends are no nodes do not matter here.
-/
namespace Flowchart.Graph

variable {graph : Graph} {ids targets wave unranked : List String} {ranked front behind : List (String × Nat)}
  {id : String} {rank : Nat}

theorem mem_among : id ∈ among targets ids ↔ id ∈ ids ∧ id ∈ targets := by
  rw [among, List.mem_filter, List.contains_iff_mem]

theorem mem_outside : id ∈ outside targets ids ↔ id ∈ ids ∧ id ∉ targets := by
  rw [outside, List.mem_filter, Bool.not_eq_true', ← Bool.not_eq_true, List.contains_iff_mem]

theorem mem_without : id ∈ without ranked ids ↔ id ∈ ids ∧ id ∉ ranked.map Prod.fst := by
  rw [without, List.mem_filter, Bool.not_eq_true', ← Bool.not_eq_true, List.contains_iff_mem]

theorem map_fst_map (ids : List String) (rank : Nat) : (ids.map (·, rank)).map Prod.fst = ids := by
  rw [List.map_map]
  exact List.map_id ids

theorem nodup_append_ranked (first : (front.map Prod.fst).Nodup) (second : (behind.map Prod.fst).Nodup)
    (fresh : ∀ id ∈ behind.map Prod.fst, id ∉ front.map Prod.fst) : ((front ++ behind).map Prod.fst).Nodup := by
  rw [List.map_append]
  refine List.nodup_append.2 ⟨first, second, ?_⟩
  intro id mem other isOther same
  exact fresh other isOther (same ▸ mem)

/-- A spread ranks unranked nodes only. -/
theorem ids_spread (graph : Graph) (rank : Nat) (wave unranked : List String) :
    ∀ id ∈ (graph.spread rank wave unranked).map Prod.fst, id ∈ unranked := by
  fun_induction spread graph rank wave unranked with
  | case1 => nofun
  | case2 rank wave unranked targets next some ih =>
    intro id mem
    rw [List.map_append, map_fst_map] at mem
    rcases List.mem_append.1 mem with now | later
    · exact (mem_among.1 now).1
    · exact (mem_outside.1 (ih id later)).1

theorem nodup_spread (nodup : unranked.Nodup) (rank : Nat) (wave : List String) :
    ((graph.spread rank wave unranked).map Prod.fst).Nodup := by
  fun_induction spread graph rank wave unranked with
  | case1 => exact .nil
  | case2 rank wave unranked targets next some ih =>
    refine nodup_append_ranked ?_ (ih (nodup.sublist List.filter_sublist)) ?_
    · rw [map_fst_map]
      exact nodup.sublist List.filter_sublist
    · intro id later now
      rw [map_fst_map] at now
      exact (mem_outside.1 (ids_spread _ _ _ _ id later)).2 (mem_among.1 now).2

theorem mem_rankCycles (graph : Graph) (unranked : List String) (id : String) :
    id ∈ (graph.rankCycles unranked).map Prod.fst ↔ id ∈ unranked := by
  fun_induction rankCycles graph unranked with
  | case1 => rfl
  | case2 first rest reached ih =>
    rw [List.map_append, List.map_cons, List.mem_append, List.mem_cons, List.mem_cons, ih, mem_without]
    constructor
    · rintro ((isFirst | now) | later)
      · exact .inl isFirst
      · exact .inr (ids_spread _ _ _ _ id now)
      · exact .inr later.1
    · rintro (isFirst | mem)
      · exact .inl (.inl isFirst)
      · by_cases now : id ∈ reached.map Prod.fst
        · exact .inl (.inr now)
        · exact .inr ⟨mem, now⟩

theorem nodup_rankCycles (nodup : unranked.Nodup) :
    ((graph.rankCycles unranked).map Prod.fst).Nodup := by
  fun_induction rankCycles graph unranked with
  | case1 => exact .nil
  | case2 first rest reached ih =>
    obtain ⟨fresh, rest⟩ := List.nodup_cons.1 nodup
    refine nodup_append_ranked ?_ (ih (rest.sublist List.filter_sublist)) ?_
    · refine List.nodup_cons.2 ⟨?_, nodup_spread rest _ _⟩
      exact fun mem => fresh (ids_spread _ _ _ _ first mem)
    · intro id later now
      obtain ⟨mem, unreached⟩ := mem_without.1 ((mem_rankCycles _ _ id).1 later)
      rcases List.mem_cons.1 now with rfl | now
      · exact fresh mem
      · exact unreached now

theorem ids_sources : ∀ id ∈ graph.sources, id ∈ graph.ids :=
  fun _ mem => (List.mem_filter.1 mem).1

/-- Just the nodes are ranked. -/
theorem mem_rankOrder (graph : Graph) (id : String) :
    id ∈ graph.rankOrder.map Prod.fst ↔ id ∈ graph.ids := by
  rw [rankOrder, List.map_append, List.map_append, List.mem_append, List.mem_append, mem_rankCycles, map_fst_map,
    mem_without, mem_without, map_fst_map]
  constructor
  · rintro ((isSource | now) | later)
    · exact ids_sources id isSource
    · have unranked := ids_spread _ _ _ _ id now
      rw [mem_without, map_fst_map] at unranked
      exact unranked.1
    · exact later.1.1
  · intro mem
    by_cases isSource : id ∈ graph.sources
    · exact .inl (.inl isSource)
    · by_cases now : id ∈ (graph.spread 0 graph.sources (without (graph.sources.map (·, 0)) graph.ids)).map Prod.fst
      · exact .inl (.inr now)
      · exact .inr ⟨⟨mem, isSource⟩, now⟩

theorem nodup_rankOrder (nodup : graph.ids.Nodup) : (graph.rankOrder.map Prod.fst).Nodup := by
  have unranked : (without (graph.sources.map (·, 0)) graph.ids).Nodup := nodup.sublist List.filter_sublist
  refine nodup_append_ranked (nodup_append_ranked ?_ (nodup_spread unranked _ _) ?_)
    (nodup_rankCycles (unranked.sublist List.filter_sublist)) ?_
  · rw [map_fst_map]
    exact nodup.sublist List.filter_sublist
  · intro id now
    exact (mem_without.1 (ids_spread _ _ _ _ id now)).2
  · intro id later earlier
    obtain ⟨mem, unreached⟩ := mem_without.1 ((mem_rankCycles _ _ id).1 later)
    rw [List.map_append] at earlier
    rcases List.mem_append.1 earlier with isSource | now
    · exact (mem_without.1 mem).2 isSource
    · exact unreached now

/-- From some rank on, every rank below one that is given is given too. -/
def Gapless (low : Nat) (ranked : List (String × Nat)) : Prop :=
  ∀ id rank, (id, rank) ∈ ranked → ∀ between, low ≤ between → between < rank → ∃ other, (other, between) ∈ ranked

theorem gapless_append {low : Nat} (first : Gapless low front) (second : Gapless low behind) :
    Gapless low (front ++ behind) := by
  intro id rank mem between above below
  rcases List.mem_append.1 mem with mem | mem
  · obtain ⟨other, found⟩ := first id rank mem between above below
    exact ⟨other, List.mem_append_left _ found⟩
  · obtain ⟨other, found⟩ := second id rank mem between above below
    exact ⟨other, List.mem_append_right _ found⟩

/-- A wave of one rank fills the gap below the ranks behind it. -/
theorem gapless_wave (some : ids ≠ []) (gapless : Gapless (rank + 1) ranked) :
    Gapless rank (ids.map (·, rank) ++ ranked) := by
  intro id above mem between low below
  rcases List.mem_append.1 mem with mem | mem
  · obtain ⟨_, _, same⟩ := List.mem_map.1 mem
    cases same
    omega
  · by_cases same : between = rank
    · obtain ⟨other, isOther⟩ := List.exists_mem_of_ne_nil _ some
      refine ⟨other, List.mem_append_left _ (List.mem_map.2 ⟨other, isOther, ?_⟩)⟩
      rw [same]
    · obtain ⟨other, found⟩ := gapless id above mem between (by omega) below
      exact ⟨other, List.mem_append_right _ found⟩

theorem gapless_spread (graph : Graph) (rank : Nat) (wave unranked : List String) :
    Gapless (rank + 1) (graph.spread rank wave unranked) := by
  fun_induction spread graph rank wave unranked with
  | case1 => exact fun _ _ => nofun
  | case2 rank wave unranked targets next some ih => exact gapless_wave some ih

theorem gapless_rankCycles (graph : Graph) (unranked : List String) :
    Gapless 0 (graph.rankCycles unranked) := by
  fun_induction rankCycles graph unranked with
  | case1 => exact fun _ _ => nofun
  | case2 first rest reached ih =>
    refine gapless_append ?_ ih
    show Gapless 0 ([first].map (·, 0) ++ reached)
    exact gapless_wave (List.cons_ne_nil _ _) (gapless_spread _ _ _ _)

theorem spread_nil (graph : Graph) (rank : Nat) (unranked : List String) :
    graph.spread rank [] unranked = [] := by
  rw [spread]
  simp [among, targetsOf]

theorem gapless_rankOrder (graph : Graph) : Gapless 0 graph.rankOrder := by
  refine gapless_append ?_ (gapless_rankCycles _ _)
  by_cases none : graph.sources = []
  · rw [none, spread_nil]
    exact fun _ _ => nofun
  · exact gapless_wave none (gapless_spread _ _ _ _)

/-! ### What ranks depend on -/

section congr

variable {other : Graph} (sameTargets : other.targetsOf = graph.targetsOf)
include sameTargets

theorem spread_congr (rank : Nat) (wave unranked : List String) :
    other.spread rank wave unranked = graph.spread rank wave unranked := by
  fun_induction spread graph rank wave unranked with
  | case1 rank wave unranked targets next none =>
    rw [spread, sameTargets]
    exact dif_pos none
  | case2 rank wave unranked targets next some ih =>
    rw [spread, sameTargets]
    exact (dif_neg some).trans (congrArg (next.map (·, rank + 1) ++ ·) ih)

theorem rankCycles_congr (unranked : List String) : other.rankCycles unranked = graph.rankCycles unranked := by
  fun_induction rankCycles graph unranked with
  | case1 => rw [rankCycles]
  | case2 id rest reached ih => rw [rankCycles, spread_congr sameTargets, ih]

/-- Ranks are found in the same order where the nodes are the same and the edges between them. -/
theorem rankOrder_congr (sameIds : other.ids = graph.ids) (sameSources : other.sources = graph.sources) :
    other.rankOrder = graph.rankOrder := by
  rw [rankOrder, spread_congr sameTargets, rankCycles_congr sameTargets, sameIds, sameSources]
  rfl

end congr

theorem lookup_of_mem (nodup : (ranked.map Prod.fst).Nodup) (mem : (id, rank) ∈ ranked) :
    ranked.lookup id = some rank := by
  induction ranked with
  | nil => cases mem
  | cons entry ranked ih =>
    obtain ⟨fresh, nodup⟩ := List.nodup_cons.1 nodup
    rw [List.lookup_cons]
    rcases List.mem_cons.1 mem with rfl | mem
    · simp
    · have differ : (id == entry.1) = false := by
        refine beq_false_of_ne ?_
        rintro rfl
        exact fresh (List.mem_map.2 ⟨_, mem, rfl⟩)
      simp [differ, ih nodup mem]

theorem rank_eq_iff (nodup : graph.ids.Nodup) (mem : id ∈ graph.ids) :
    graph.rank id = rank ↔ (id, rank) ∈ graph.rankOrder := by
  obtain ⟨⟨_, given⟩, isGiven, rfl⟩ := List.mem_map.1 ((mem_rankOrder graph id).2 mem)
  have found := lookup_of_mem (nodup_rankOrder nodup) isGiven
  rw [Graph.rank, found, Option.getD_some]
  constructor
  · rintro rfl
    exact isGiven
  · intro isRank
    have same := lookup_of_mem (nodup_rankOrder nodup) isRank
    rw [found] at same
    exact Option.some.inj same

/-- Below the rank of a node, every rank is the rank of some node. -/
theorem exists_rank (nodup : graph.ids.Nodup) (mem : id ∈ graph.ids) (below : rank < graph.rank id) :
    ∃ other ∈ graph.ids, graph.rank other = rank := by
  have given := (rank_eq_iff nodup mem).1 rfl
  obtain ⟨other, found⟩ := gapless_rankOrder graph id _ given rank (Nat.zero_le _) below
  have isNode := (mem_rankOrder graph other).1 (List.mem_map.2 ⟨_, found, rfl⟩)
  exact ⟨other, isNode, (rank_eq_iff nodup isNode).2 found⟩

end Flowchart.Graph
