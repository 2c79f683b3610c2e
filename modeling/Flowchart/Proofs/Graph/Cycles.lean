import Mathlib.Algebra.BigOperators.Group.List.Basic
import Mathlib.Algebra.GroupWithZero.Nat
import Mathlib.Data.List.Chain
import Mathlib.Data.List.Nodup
import Mathlib.Logic.Relation
import Flowchart.Graph.Lint
import Flowchart.Proofs.Graph.Depths

/-!
The search for a cycle finds one just where there is one. It is followed round by round: the nodes on its
path lead to one another, and a node that has been left for good lies on no cycle and leads only to nodes
that have been left as well. Every round uses up a node or an edge, so that the search ends.
-/
namespace Flowchart

/-- The warning tells of a cycle. -/
def Warning.IsAboutCycle (warning : Warning) : Prop :=
  "Cycle detected".toList <+: warning.message.toList

namespace Graph

/-- Some edge leads from the one node to the other, and they differ. -/
def Leads (graph : Graph) (source target : String) : Prop :=
  source ≠ target ∧ graph.Joined source target

/-- Edges that are no loops lead from some node back to it. -/
def HasCycle (graph : Graph) : Prop :=
  ∃ id, Relation.TransGen graph.Leads id id

/-- A path along edges that ends where it starts, over at least one other node, and comes to no node twice before
that. -/
structure IsCycle (graph : Graph) (path : List String) : Prop where
  closed : ∃ first inner, path = first :: inner ++ [first] ∧ inner ≠ [] ∧ (first :: inner).Nodup
  joined : path.IsChain graph.Leads

/-- Where a search stands: the nodes that it never came to, the steps of its path, the last one first, and the nodes
that it has not tried to start from. -/
structure Tour where
  unseen : List String
  path : List Step
  roots : List String

namespace Tour

/-- One round of a search: where it stands behind it, or what it ends with. -/
def round (graph : Graph) : Tour → Tour ⊕ Option (List String)
  | ⟨_, [], []⟩ => .inr none
  | ⟨unseen, [], id :: roots⟩ =>
    .inl (if unseen.contains id then ⟨unseen.erase id, [(id, graph.successors id)], roots⟩ else ⟨unseen, [], roots⟩)
  | ⟨unseen, (_, []) :: rest, roots⟩ => .inl ⟨unseen, rest, roots⟩
  | ⟨unseen, (id, next :: others) :: rest, roots⟩ =>
    let ids := id :: rest.map Prod.fst
    if ids.contains next then .inr (some (next :: (ids.takeWhile (· ≠ next)).reverse ++ [next]))
    else if next ∈ unseen then .inl ⟨unseen.erase next, (next, graph.successors next) :: (id, others) :: rest, roots⟩
    else .inl ⟨unseen, (id, others) :: rest, roots⟩

/-- The search ends with a result after a number of rounds. -/
inductive Ends (graph : Graph) : Nat → Tour → Option (List String) → Prop where
  | last {tour : Tour} {found : Option (List String)} : tour.round graph = .inr found → Ends graph 1 tour found
  | more {rounds : Nat} {tour next : Tour} {found : Option (List String)} :
      tour.round graph = .inl next → Ends graph rounds next found → Ends graph (rounds + 1) tour found

/-- The search before its first round. -/
def start (graph : Graph) : Tour :=
  ⟨(graph.ids ++ graph.edges.map Edge.target).eraseDups, [], graph.ids⟩

/-- What the search finds from where it stands. -/
def outcome (graph : Graph) (tour : Tour) : Option (List String) :=
  match graph.searchPath tour.unseen tour.path with
  | .cycle path => some path
  | .unseen ids => graph.searchFrom ids tour.roots

end Tour

/-- What is found out about the cycles of a graph, and how soon. -/
structure DetectsCycles (graph : Graph) : Prop where
  warned : (∃ warning ∈ graph.warnings, warning.IsAboutCycle) ↔ graph.HasCycle
  reported : ∀ warning ∈ graph.warnings, warning.IsAboutCycle → ∃ path,
    warning.message = "Cycle detected: " ++ " -> ".intercalate path ++ "." ∧ graph.IsCycle path
  ends : ∃ rounds ≤ 2 * graph.ids.length + graph.edges.length + 1,
    Tour.Ends graph rounds (.start graph) graph.cycle?

variable {graph : Graph} {tour following : Tour} {found : Option (List String)} {unseen path roots : List String}
  {steps : List Step} {id next : String} {untried : List String}

theorem mem_successors : next ∈ graph.successors id ↔ graph.Leads id next := by
  simp only [successors, List.mem_map, List.mem_filter, Bool.and_eq_true, beq_iff_eq, Bool.not_eq_true', Edge.isLoop,
    beq_eq_false_iff_ne, Leads, Joined]
  constructor
  · rintro ⟨edge, ⟨isEdge, rfl, differ⟩, rfl⟩
    exact ⟨differ, edge, isEdge, rfl, rfl⟩
  · rintro ⟨differ, edge, isEdge, rfl, rfl⟩
    exact ⟨edge, ⟨isEdge, rfl, differ⟩, rfl⟩

/-! ### The search as a sequence of rounds -/

namespace Tour

/-- What one round can do. -/
inductive Moves (graph : Graph) : Tour → Tour → Prop where
  | start {unseen roots : List String} {id : String} : id ∈ unseen →
      Moves graph ⟨unseen, [], id :: roots⟩ ⟨unseen.erase id, [(id, graph.successors id)], roots⟩
  | pass {unseen roots : List String} {id : String} : id ∉ unseen →
      Moves graph ⟨unseen, [], id :: roots⟩ ⟨unseen, [], roots⟩
  | leave {unseen roots : List String} {id : String} {rest : List Step} :
      Moves graph ⟨unseen, (id, []) :: rest, roots⟩ ⟨unseen, rest, roots⟩
  | push {unseen others roots : List String} {id next : String} {rest : List Step} :
      next ∉ id :: rest.map Prod.fst → next ∈ unseen →
      Moves graph ⟨unseen, (id, next :: others) :: rest, roots⟩
        ⟨unseen.erase next, (next, graph.successors next) :: (id, others) :: rest, roots⟩
  | skip {unseen others roots : List String} {id next : String} {rest : List Step} :
      next ∉ id :: rest.map Prod.fst → next ∉ unseen →
      Moves graph ⟨unseen, (id, next :: others) :: rest, roots⟩ ⟨unseen, (id, others) :: rest, roots⟩

/-- What the last round can end with. -/
inductive Halts : Tour → Option (List String) → Prop where
  | exhausted {unseen : List String} : Halts ⟨unseen, [], []⟩ none
  | closed {unseen others roots : List String} {id next : String} {rest : List Step} :
      next ∈ id :: rest.map Prod.fst → Halts ⟨unseen, (id, next :: others) :: rest, roots⟩
        (some (next :: ((id :: rest.map Prod.fst).takeWhile (· ≠ next)).reverse ++ [next]))

theorem round_cases (graph : Graph) (tour : Tour) :
    (∃ following, tour.round graph = .inl following ∧ tour.Moves graph following) ∨
      ∃ found, tour.round graph = .inr found ∧ tour.Halts found := by
  obtain ⟨unseen, steps, roots⟩ := tour
  match steps, roots with
  | [], [] => exact .inr ⟨_, rfl, .exhausted⟩
  | [], id :: roots =>
    by_cases isUnseen : id ∈ unseen
    · exact .inl ⟨_, by rw [round, if_pos (List.contains_iff_mem.2 isUnseen)], .start isUnseen⟩
    · exact .inl ⟨_, by rw [round, if_neg (mt List.contains_iff_mem.1 isUnseen)], .pass isUnseen⟩
  | (id, []) :: rest, roots => exact .inl ⟨_, rfl, .leave⟩
  | (id, next :: others) :: rest, roots =>
    by_cases closes : next ∈ id :: rest.map Prod.fst
    · exact .inr ⟨_, by simp only [round, List.contains_iff_mem, if_pos closes], .closed closes⟩
    by_cases isUnseen : next ∈ unseen
    · refine .inl ⟨_, ?_, .push closes isUnseen⟩
      simp only [round, List.contains_iff_mem, if_neg closes, if_pos isUnseen]
    · refine .inl ⟨_, ?_, .skip closes isUnseen⟩
      simp only [round, List.contains_iff_mem, if_neg closes, if_neg isUnseen]

theorem moves_of_inl (isRound : tour.round graph = .inl following) : tour.Moves graph following := by
  obtain ⟨next, same, moves⟩ | ⟨_, halted, _⟩ := round_cases graph tour
  · cases isRound.symm.trans same
    exact moves
  · cases isRound.symm.trans halted

theorem halts_of_inr (isRound : tour.round graph = .inr found) : tour.Halts found := by
  obtain ⟨_, moved, _⟩ | ⟨_, same, halts⟩ := round_cases graph tour
  · cases isRound.symm.trans moved
  · cases isRound.symm.trans same
    exact halts

theorem outcome_of_moves (moves : tour.Moves graph following) : tour.outcome graph = following.outcome graph := by
  cases moves with
  | @start unseen roots id isUnseen =>
    rw [outcome, searchPath]
    show graph.searchFrom unseen (id :: roots) = _
    rw [searchFrom, if_pos (List.contains_iff_mem.2 isUnseen)]
    rfl
  | @pass unseen roots id isSeen =>
    rw [outcome, searchPath, outcome, searchPath]
    show graph.searchFrom unseen (id :: roots) = _
    rw [searchFrom, if_neg (mt List.contains_iff_mem.1 isSeen)]
  | leave => rw [outcome, outcome, searchPath]
  | push open_ isUnseen =>
    rw [outcome, outcome, searchPath]
    simp only [List.contains_iff_mem, if_neg open_, dif_pos isUnseen]
  | skip open_ isSeen =>
    rw [outcome, outcome, searchPath]
    simp only [List.contains_iff_mem, if_neg open_, dif_neg isSeen]

theorem outcome_of_halts (halts : tour.Halts found) : tour.outcome graph = found := by
  cases halts with
  | exhausted =>
    rw [outcome, searchPath]
    rfl
  | closed closes =>
    rw [outcome, searchPath]
    simp only [List.contains_iff_mem, if_pos closes]

theorem outcome_start (graph : Graph) : (start graph).outcome graph = graph.cycle? := by
  rw [outcome, start, searchPath, cycle?]

/-- What the search can still use up: a node where it may start, and a node or an edge that it may pass. -/
def effort (graph : Graph) (tour : Tour) : Nat :=
  tour.roots.length + (tour.unseen.map fun id => (graph.successors id).length + 1).sum +
    (tour.path.map fun step => step.2.length + 1).sum

theorem effort_of_moves (moves : tour.Moves graph following) : following.effort graph + 1 = tour.effort graph := by
  have leave {unseen : List String} {id : String} (mem : id ∈ unseen) :=
    List.sum_map_erase (fun id => (graph.successors id).length + 1) mem
  cases moves with
  | start isUnseen | push _ isUnseen =>
    have := leave isUnseen
    simp only [effort, List.map_cons, List.map_nil, List.sum_cons, List.sum_nil, List.length_cons]
    omega
  | pass | leave | skip =>
    simp only [effort, List.map_cons, List.map_nil, List.sum_cons, List.sum_nil, List.length_cons, List.length_nil]
    omega

/-- The search ends with its outcome before it has used up more than there is. -/
theorem ends_outcome (graph : Graph) (tour : Tour) :
    ∃ rounds ≤ tour.effort graph + 1, Ends graph rounds tour (tour.outcome graph) := by
  induction size : tour.effort graph generalizing tour with
  | zero =>
    obtain ⟨following, -, moves⟩ | ⟨found, isRound, halts⟩ := round_cases graph tour
    · have := effort_of_moves moves
      omega
    · exact ⟨1, Nat.le_refl _, outcome_of_halts halts ▸ .last isRound⟩
  | succ effort ih =>
    obtain ⟨following, isRound, moves⟩ | ⟨found, isRound, halts⟩ := round_cases graph tour
    · have less := effort_of_moves moves
      obtain ⟨rounds, bound, ends⟩ := ih following (by omega)
      exact ⟨rounds + 1, Nat.succ_le_succ bound, .more isRound (outcome_of_moves moves ▸ ends)⟩
    · exact ⟨1, Nat.succ_le_succ (Nat.zero_le _), outcome_of_halts halts ▸ .last isRound⟩

end Tour

theorem nodup_eraseDups (ids : List String) : ids.eraseDups.Nodup := by
  induction size : ids.length using Nat.strong_induction_on generalizing ids with
  | _ size ih =>
    cases ids with
    | nil => exact .nil
    | cons id rest =>
      rw [List.eraseDups_cons, List.nodup_cons, List.mem_eraseDups, List.mem_filter]
      refine ⟨fun mem => by simp at mem, ih _ ?_ _ rfl⟩
      rw [← size, List.length_cons]
      exact Nat.lt_succ_of_le (List.length_filter_le _ _)

theorem sum_indicator_eq (ids : List String) (p : String → Bool) :
    (ids.map fun id => if p id then 1 else 0).sum = ids.countP p := by
  induction ids with
  | nil => rfl
  | cons id rest ih => rw [List.map_cons, List.sum_cons, ih, List.countP_cons, Nat.add_comm]

/-- Each edge starts at one node at most. -/
theorem sum_successors_le (distinct : path.Nodup) :
    (path.map fun id => (graph.successors id).length).sum ≤ graph.edges.length := by
  simp only [successors, List.length_map]
  induction graph.edges with
  | nil => simp
  | cons edge edges ih =>
    have here : (path.map fun id => if edge.source == id && !edge.isLoop then 1 else 0).sum ≤ 1 := by
      rw [sum_indicator_eq]
      refine Nat.le_trans (List.countP_mono_left ?_) (List.nodup_iff_count_le_one.1 distinct edge.source)
      intro id _ starts
      exact beq_iff_eq.2 (beq_iff_eq.1 (Bool.and_eq_true_iff.1 starts).1).symm
    have split (id : String) : ((edge :: edges).filter fun edge => edge.source == id && !edge.isLoop).length =
        (if edge.source == id && !edge.isLoop then 1 else 0) +
          (edges.filter fun edge => edge.source == id && !edge.isLoop).length := by
      rw [List.filter_cons]
      split
      · rw [List.length_cons, Nat.add_comm]
      · rw [Nat.zero_add]
    simp only [split, List.sum_map_add, List.length_cons]
    omega

theorem effort_start_le (wellFormed : graph.WellFormed) :
    (Tour.start graph).effort graph ≤ 2 * graph.ids.length + graph.edges.length := by
  have same : (Tour.start graph).unseen.Perm graph.ids := by
    refine (List.perm_ext_iff_of_nodup (nodup_eraseDups _) wellFormed.1).2 fun id => ?_
    rw [List.mem_eraseDups, List.mem_append, List.mem_map]
    refine or_iff_left_of_imp ?_
    rintro ⟨edge, isEdge, rfl⟩
    exact (wellFormed.2 edge isEdge).2
  have unseen := (same.map fun id => (graph.successors id).length + 1).sum_eq
  have nodes : (graph.ids.map fun id => (graph.successors id).length + 1).sum =
      (graph.ids.map fun id => (graph.successors id).length).sum + graph.ids.length := by
    rw [List.sum_map_add]
    simp
  have edges : (graph.ids.map fun id => (graph.successors id).length).sum ≤ graph.edges.length :=
    sum_successors_le wellFormed.1
  have whole : (Tour.start graph).effort graph =
      graph.ids.length + ((Tour.start graph).unseen.map fun id => (graph.successors id).length + 1).sum := rfl
  omega

/-! ### What every round keeps -/

/-- The steps of a path: each one was come to from the step below it, and of the nodes that it leads to, those that it
has not tried yet are noted down and the others were come to and do not lie on the path up to it. -/
inductive Walked (graph : Graph) (unseen : List String) : List Step → Prop where
  | nil : Walked graph unseen []
  | cons {id : String} {untried : List String} {rest : List Step} : Walked graph unseen rest → id ∉ unseen →
      id ∉ rest.map Prod.fst → (∀ below ∈ rest.head?, graph.Leads below.1 id) →
      (∀ next ∈ untried, graph.Leads id next) →
      (∀ next, graph.Leads id next → next ∈ untried ∨ next ∉ unseen ∧ next ∉ id :: rest.map Prod.fst) →
      Walked graph unseen ((id, untried) :: rest)

theorem Walked.mono {fewer : List String} (walked : Walked graph unseen steps) (subset : fewer ⊆ unseen) :
    Walked graph fewer steps := by
  induction walked with
  | nil => exact .nil
  | cons _ seen fresh below untried tried ih =>
    refine .cons ih (mt (@subset _) seen) fresh below untried ?_
    intro next leads
    exact (tried next leads).imp_right fun ⟨seen, off⟩ => ⟨mt (@subset _) seen, off⟩

theorem Walked.leads {rest : List Step} (walked : Walked graph unseen ((id, untried) :: rest)) (mem : next ∈ untried) :
    graph.Leads id next := by
  cases walked with
  | cons _ _ _ _ leads _ => exact leads next mem

/-- A new step on top of the path has not tried anything. -/
theorem Walked.push (walked : Walked graph unseen steps) (seen : next ∉ unseen) (off : next ∉ steps.map Prod.fst)
    (below : ∀ step ∈ steps.head?, graph.Leads step.1 next) :
    Walked graph unseen ((next, graph.successors next) :: steps) :=
  .cons walked seen off below (fun _ => mem_successors.1) fun _ leads => .inl (mem_successors.2 leads)

/-- A node counts as tried when it was come to and does not lie on the path. -/
theorem Walked.skip {others : List String} {rest : List Step}
    (walked : Walked graph unseen ((id, next :: others) :: rest)) (isSeen : next ∉ unseen)
    (off : next ∉ id :: rest.map Prod.fst) : Walked graph unseen ((id, others) :: rest) := by
  cases walked with
  | cons walked seen fresh below untried tried =>
  refine .cons walked seen fresh below (fun other mem => untried other (List.mem_cons_of_mem _ mem)) ?_
  intro other leads
  rcases tried other leads with mem | left
  · rcases List.mem_cons.1 mem with rfl | mem
    · exact .inr ⟨isSeen, off⟩
    · exact .inl mem
  · exact .inr left

namespace Tour

/-- The search came to the node and has left it again. -/
def Left (tour : Tour) (id : String) : Prop :=
  id ∉ tour.unseen ∧ id ∉ tour.path.map Prod.fst

/-- A node that has been left leads only to such nodes and lies on no cycle. -/
structure Sound (graph : Graph) (tour : Tour) : Prop where
  distinct : tour.unseen.Nodup
  walked : Walked graph tour.unseen tour.path
  planned : ∀ id ∈ graph.ids, id ∈ tour.unseen → id ∈ tour.roots
  closed : ∀ id next, tour.Left id → graph.Leads id next → tour.Left next
  acyclic : ∀ id, tour.Left id → ¬Relation.TransGen graph.Leads id id

/-- The nodes that have been left are the same when a node that was never come to is put on the path. -/
theorem left_push {before : List Step} (distinct : unseen.Nodup) (isUnseen : next ∈ unseen)
    (same : steps.map Prod.fst = before.map Prod.fst) (untried : List String) :
    Left ⟨unseen.erase next, (next, untried) :: steps, roots⟩ id ↔ Left ⟨unseen, before, path⟩ id := by
  simp only [Left, distinct.mem_erase_iff, List.map_cons, same, List.mem_cons, not_or, not_and]
  constructor
  · exact fun ⟨seen, differ, off⟩ => ⟨seen differ, off⟩
  · refine fun ⟨seen, off⟩ => ⟨fun _ => seen, ?_, off⟩
    rintro rfl
    exact seen isUnseen

theorem left_of_reflTransGen (sound : tour.Sound graph) (left : tour.Left id)
    (leads : Relation.ReflTransGen graph.Leads id next) : tour.Left next := by
  induction leads with
  | refl => exact left
  | tail _ leads ih => exact sound.closed _ _ ih leads

/-- Leaving the last node of the path: whatever it leads to has been left before it. -/
theorem Sound.leave {rest : List Step} (sound : Sound graph ⟨unseen, (id, []) :: rest, roots⟩) :
    Sound graph ⟨unseen, rest, roots⟩ := by
  have ⟨distinct, walked, planned, closed, acyclic⟩ := sound
  cases walked with
  | cons walked seen off below untried tried =>
  have behind (next : String) (leads : graph.Leads id next) : Left ⟨unseen, (id, []) :: rest, roots⟩ next := by
    obtain none | left := tried next leads
    · cases none
    · exact left
  have weaken {other : String} (left : Left ⟨unseen, (id, []) :: rest, roots⟩ other) :
      Left ⟨unseen, rest, roots⟩ other :=
    ⟨left.1, fun mem => left.2 (List.mem_cons_of_mem _ mem)⟩
  have cases_ {other : String} (left : Left ⟨unseen, rest, roots⟩ other) :
      other = id ∨ Left ⟨unseen, (id, []) :: rest, roots⟩ other := by
    by_cases same : other = id
    · exact .inl same
    · exact .inr ⟨left.1, by simpa [same] using left.2⟩
  refine ⟨distinct, walked, planned, ?_, ?_⟩
  · intro other next left leads
    rcases cases_ left with rfl | left
    · exact weaken (behind next leads)
    · exact weaken (closed other next left leads)
  · intro other left cycle
    rcases cases_ left with rfl | left
    · obtain ⟨next, leads, back⟩ := Relation.TransGen.head'_iff.1 cycle
      exact (left_of_reflTransGen sound (behind next leads) back).2 List.mem_cons_self
    · exact acyclic other left cycle

/-- Coming to a node for the first time, from the last step of the path if there is one. -/
theorem Sound.push {before : List Step} (sound : Sound graph ⟨unseen, before, path⟩) (isUnseen : next ∈ unseen)
    (same : steps.map Prod.fst = before.map Prod.fst) (walked : Walked graph (unseen.erase next) steps)
    (below : ∀ step ∈ steps.head?, graph.Leads step.1 next) (off : next ∉ steps.map Prod.fst)
    (planned : ∀ id ∈ graph.ids, id ≠ next → id ∈ unseen → id ∈ roots) :
    Sound graph ⟨unseen.erase next, (next, graph.successors next) :: steps, roots⟩ := by
  have left (id : String) : Left ⟨unseen.erase next, (next, graph.successors next) :: steps, roots⟩ id ↔
      Left ⟨unseen, before, path⟩ id := left_push sound.distinct isUnseen same _
  refine ⟨sound.distinct.erase next, walked.push sound.distinct.not_mem_erase off below, ?_, ?_, ?_⟩
  · intro id isNode mem
    obtain ⟨differ, mem⟩ := sound.distinct.mem_erase_iff.1 mem
    exact planned id isNode differ mem
  · intro id next isLeft leads
    exact (left next).2 (sound.closed id next ((left id).1 isLeft) leads)
  · exact fun id isLeft => sound.acyclic id ((left id).1 isLeft)

theorem Sound.moves (sound : tour.Sound graph) (moves : tour.Moves graph following) : following.Sound graph := by
  cases moves with
  | start isUnseen =>
    refine sound.push isUnseen rfl .nil nofun List.not_mem_nil ?_
    intro other isNode differ mem
    exact (List.mem_cons.1 (sound.planned other isNode mem)).resolve_left differ
  | pass isSeen =>
    refine ⟨sound.distinct, .nil, ?_, sound.closed, sound.acyclic⟩
    intro other isNode mem
    refine (List.mem_cons.1 (sound.planned other isNode mem)).resolve_left ?_
    rintro rfl
    exact isSeen mem
  | leave => exact sound.leave
  | push off isUnseen =>
    have walked := (sound.walked.mono List.erase_subset).skip sound.distinct.not_mem_erase off
    refine sound.push isUnseen rfl walked ?_ off fun other isNode _ mem => sound.planned other isNode mem
    rintro _ ⟨⟩
    exact sound.walked.leads List.mem_cons_self
  | skip off isSeen =>
    exact ⟨sound.distinct, sound.walked.skip isSeen off, sound.planned, sound.closed, sound.acyclic⟩

end Tour

/-! ### What the search ends with -/

theorem isChain_of_walked (walked : Walked graph unseen steps) :
    (steps.map Prod.fst).IsChain fun later earlier => graph.Leads earlier later := by
  induction walked with
  | nil => exact .nil
  | @cons id untried rest _ _ _ below _ _ ih =>
    refine ih.cons ?_
    intro earlier isHead
    rw [List.head?_map, Option.mem_map] at isHead
    obtain ⟨step, isStep, rfl⟩ := isHead
    exact below step isStep

theorem nodup_of_walked (walked : Walked graph unseen steps) : (steps.map Prod.fst).Nodup := by
  induction walked with
  | nil => exact .nil
  | cons _ _ fresh _ _ _ ih => exact List.nodup_cons.2 ⟨fresh, ih⟩

/-- A node that leads back to one on the path closes a cycle with the steps from there on. -/
theorem isCycle_of_walked {rest : List Step} (walked : Walked graph unseen ((id, next :: untried) :: rest))
    (closes : next ∈ id :: rest.map Prod.fst) :
    graph.IsCycle (next :: ((id :: rest.map Prod.fst).takeWhile (· ≠ next)).reverse ++ [next]) := by
  have leads : graph.Leads id next := walked.leads List.mem_cons_self
  have chain := isChain_of_walked walked
  have distinct := nodup_of_walked walked
  obtain ⟨above, below, split, fresh⟩ := List.eq_append_cons_of_mem closes
  have isAbove : (id :: rest.map Prod.fst).takeWhile (· ≠ next) = above := by
    rw [split, List.takeWhile_append_of_pos fun other mem => decide_eq_true (ne_of_mem_of_not_mem mem fresh)]
    simp
  rw [isAbove]
  rw [List.map_cons, split] at chain distinct
  cases above with
  | nil => exact absurd (List.cons.inj split).1 leads.1
  | cons first above =>
    obtain ⟨rfl, -⟩ := List.cons.inj split
    refine ⟨⟨next, (id :: above).reverse, rfl, by simp, ?_⟩, ?_⟩
    · rw [List.nodup_cons, List.mem_reverse, List.nodup_reverse]
      exact ⟨fresh, (List.nodup_append.1 distinct).1⟩
    · rw [List.append_cons] at chain
      have back := List.isChain_reverse.2 chain.left_of_append
      rw [List.reverse_concat] at back
      refine back.append (.singleton next) ?_
      intro last isLast _ isFirst
      rw [List.reverse_cons, ← List.cons_append, List.getLast?_concat] at isLast
      cases isLast
      cases isFirst
      exact leads

namespace Tour

theorem Sound.isCycle (sound : tour.Sound graph) (halts : tour.Halts (some path)) : graph.IsCycle path := by
  cases halts with
  | closed closes => exact isCycle_of_walked sound.walked closes

/-- When there is nothing left to search, every node has been left. -/
theorem Sound.not_hasCycle (sound : tour.Sound graph) (wellFormed : graph.WellFormed) (halts : tour.Halts none) :
    ¬graph.HasCycle := by
  cases halts with
  | exhausted =>
    rintro ⟨id, cycle⟩
    obtain ⟨next, ⟨-, edge, isEdge, rfl, -⟩, -⟩ := Relation.TransGen.head'_iff.1 cycle
    have isNode := (wellFormed.2 edge isEdge).1
    refine sound.acyclic _ ⟨fun mem => ?_, List.not_mem_nil⟩ cycle
    exact List.not_mem_nil (sound.planned _ isNode mem)

/-- What a search ends with that has kept to its rounds. -/
theorem Ends.correct {rounds : Nat} (ends : Ends graph rounds tour found) (wellFormed : graph.WellFormed)
    (sound : tour.Sound graph) :
    (∀ path, found = some path → graph.IsCycle path) ∧ (found = none → ¬graph.HasCycle) := by
  induction ends with
  | @last tour found isRound =>
    have halts := halts_of_inr isRound
    constructor
    · rintro path rfl
      exact sound.isCycle halts
    · rintro rfl
      exact sound.not_hasCycle wellFormed halts
  | more isRound _ ih => exact ih (sound.moves (moves_of_inl isRound))

theorem sound_start (wellFormed : graph.WellFormed) : (start graph).Sound graph := by
  have noWay (id next : String) (left : (start graph).Left id) : ¬graph.Leads id next := by
    rintro ⟨-, edge, isEdge, rfl, -⟩
    have isNode := (wellFormed.2 edge isEdge).1
    exact left.1 (List.mem_eraseDups.2 (List.mem_append_left _ isNode))
  refine ⟨nodup_eraseDups _, .nil, fun id isNode _ => isNode, ?_, ?_⟩
  · exact fun id next left leads => absurd leads (noWay id next left)
  · intro id left cycle
    obtain ⟨next, leads, -⟩ := Relation.TransGen.head'_iff.1 cycle
    exact noWay id next left leads

end Tour

theorem IsCycle.hasCycle (isCycle : graph.IsCycle path) : graph.HasCycle := by
  obtain ⟨⟨first, inner, rfl, -, -⟩, joined⟩ := isCycle
  have ways := (joined.imp fun _ _ => Relation.TransGen.single).pairwise
  refine ⟨first, List.rel_of_pairwise_cons ways ?_⟩
  exact List.mem_append_right _ (List.mem_singleton_self first)

theorem cycle?_eq_some (wellFormed : graph.WellFormed) (isFound : graph.cycle? = some path) : graph.IsCycle path := by
  obtain ⟨rounds, -, ends⟩ := Tour.ends_outcome graph (.start graph)
  rw [Tour.outcome_start] at ends
  exact (ends.correct wellFormed (Tour.sound_start wellFormed)).1 path isFound

theorem cycle?_eq_none (wellFormed : graph.WellFormed) (notFound : graph.cycle? = none) : ¬graph.HasCycle := by
  obtain ⟨rounds, -, ends⟩ := Tour.ends_outcome graph (.start graph)
  rw [Tour.outcome_start] at ends
  exact (ends.correct wellFormed (Tour.sound_start wellFormed)).2 notFound

end Graph

theorem Warning.isAboutCycle_iff {warning : Warning} : warning.IsAboutCycle ↔ ∃ path, warning = .cycle path := by
  constructor
  · rintro ⟨rest, about⟩
    -- The others differ from it in their first character.
    rw [message.eq_def] at about
    cases warning with
    | cycle path => exact ⟨path, rfl⟩
    | _ => simp [toString] at about
  · rintro ⟨path, rfl⟩
    refine ⟨": ".toList ++ (" -> ".intercalate path ++ ".").toList, ?_⟩
    rw [message.eq_def]
    simp

namespace Graph

variable {graph : Graph} {path : List String}

theorem mem_cycleWarnings : Warning.cycle path ∈ graph.warnings ↔ graph.cycle? = some path := by
  have duplicates (earlier edges : List Edge) : Warning.cycle path ∉ duplicateWarnings earlier edges := by
    induction edges generalizing earlier with
    | nil => exact List.not_mem_nil
    | cons edge edges ih =>
      rw [duplicateWarnings, List.mem_append, not_or]
      refine ⟨?_, ih _⟩
      split <;> simp
  have isolated : Warning.cycle path ∉ graph.isolatedWarnings := by
    rw [isolatedWarnings]
    split <;> simp
  have empty : Warning.cycle path ∉ graph.emptyWarnings := by simp [emptyWarnings]
  simp only [warnings, List.mem_append, isolated, duplicates, empty, false_or, Option.mem_toList,
    Option.map_eq_some_iff, Warning.cycle.injEq, exists_eq_right]

/-- The warning about a cycle is given just where there is one, tells of one, and is not waited for in vain. -/
theorem detectsCycles (wellFormed : graph.WellFormed) : graph.DetectsCycles := by
  constructor
  · constructor
    · rintro ⟨warning, isWarning, about⟩
      obtain ⟨path, rfl⟩ := Warning.isAboutCycle_iff.1 about
      exact (cycle?_eq_some wellFormed (mem_cycleWarnings.1 isWarning)).hasCycle
    · intro hasCycle
      cases isFound : graph.cycle? with
      | none => exact absurd hasCycle (cycle?_eq_none wellFormed isFound)
      | some path =>
        exact ⟨.cycle path, mem_cycleWarnings.2 isFound, Warning.isAboutCycle_iff.2 ⟨path, rfl⟩⟩
  · intro warning isWarning about
    obtain ⟨path, rfl⟩ := Warning.isAboutCycle_iff.1 about
    exact ⟨path, rfl, cycle?_eq_some wellFormed (mem_cycleWarnings.1 isWarning)⟩
  · obtain ⟨rounds, bound, ends⟩ := Tour.ends_outcome graph (.start graph)
    have effort := effort_start_le wellFormed
    exact ⟨rounds, by omega, Tour.outcome_start graph ▸ ends⟩

/-- Two roads that meet again, and a cycle behind them that a loop and a second edge lie on. -/
def roundabout : Graph :=
  { nodes := [⟨"a", "a", .rectangle⟩, ⟨"b", "b", .rectangle⟩, ⟨"c", "c", .rectangle⟩, ⟨"d", "d", .rectangle⟩]
    edges := [{ source := "a", target := "b" }, { source := "a", target := "c" }, { source := "b", target := "c" },
      { source := "c", target := "c" }, { source := "c", target := "d" }, { source := "c", target := "d" },
      { source := "d", target := "b" }] }

theorem detectsCycles_roundabout : roundabout.WellFormed ∧ roundabout.DetectsCycles := by
  have wellFormed : roundabout.WellFormed := ⟨by decide, by decide⟩
  exact ⟨wellFormed, detectsCycles wellFormed⟩

end Graph
end Flowchart
