import Flowchart.Proofs.Diagram.SourceOrder

/-!
Which diagrams have no graph. The builder knows of each id where it was first mentioned and how it was
last declared, and of each block where it starts; so it refuses the first construct that clashes with an
earlier one, and at the end the first block whose id names a node.
-/
namespace Flowchart

open Construct

def declared? (cs : List Construct) (id : String) : Option (Shape × Position) :=
  cs.reverse.findSome? (declares? id)

def mentioned? (cs : List Construct) (id : String) : Option Position :=
  cs.findSome? (mentions? id)

def Consistent (cs : List Construct) : Prop :=
  cs.Pairwise fun first second => ¬Clashes first second

variable {cs : List Construct} {node : NodeRef} {id : String}

theorem declared?_append (cs : List Construct) (c : Construct) (id : String) :
    declared? (cs ++ [c]) id = (declares? id c).or (declared? cs id) := by
  rw [declared?, List.reverse_append, List.findSome?_append]
  simp [declared?]

theorem mentioned?_append (cs : List Construct) (c : Construct) (id : String) :
    mentioned? (cs ++ [c]) id = (mentioned? cs id).or (mentions? id c) := by
  rw [mentioned?, List.findSome?_append]
  simp [mentioned?]

/-- A declaration that a node has is the latest one of its id. -/
theorem declared?_eq_some {shape : Shape} {place : Position} (h : declared? cs id = some (shape, place)) :
    ∃ pre first mid, cs = pre ++ .ref first :: mid ∧ first.id = id ∧ first.shape = some shape ∧
      first.span.start = place ∧ ∀ c ∈ mid, declares? id c = none := by
  obtain ⟨behind, c, front, eq, declares, none⟩ := List.findSome?_eq_some_iff.1 h
  have split : cs = front.reverse ++ c :: behind.reverse := by
    rw [← cs.reverse_reverse, eq]
    simp
  cases c with
  | block => cases declares
  | ref first =>
    simp only [declares?] at declares
    split at declares
    · rename_i same
      obtain ⟨shape', isShape, eq⟩ := Option.map_eq_some_iff.1 declares
      cases eq
      exact ⟨_, first, _, split, same, isShape, rfl, fun c mem => none c (List.mem_reverse.1 mem)⟩
    · cases declares

namespace Known

theorem id_of_find? {list : List Known} {known : Known} (found : list.find? (·.id == id) = some known) :
    known.id = id := by
  have same := List.find?_some found
  exact eq_of_beq same

/-- A further mention is refused if it declares another shape, and otherwise taken up. -/
theorem declare_cases (known : Known) (node : NodeRef) :
    (∃ s place t, known.declared = some (s, place) ∧ node.shape = some t ∧ s ≠ t ∧
      known.declare node = .error (.shapes known.id s place t node.span.start)) ∨
    (∀ s place t, known.declared = some (s, place) → node.shape = some t → s = t) ∧
      ∃ next, known.declare node = .ok next ∧ next.id = known.id ∧ next.firstAt = known.firstAt ∧
        next.declared = (node.shape.map fun shape => (shape, node.span.start)).or known.declared := by
  cases isShape : node.shape with
  | none =>
    right
    refine ⟨fun _ _ _ _ => nofun, known, ?_, rfl, rfl, rfl⟩
    simp [declare, isShape]
  | some t =>
    have taken : ∃ next : Known, next.id = known.id ∧ next.firstAt = known.firstAt ∧
        next.declared = some (t, node.span.start) ∧
        ((∀ s place, known.declared = some (s, place) → s = t) → known.declare node = .ok next) := by
      refine ⟨{ known with declared := some (t, node.span.start), label := node.label.or known.label },
        rfl, rfl, rfl, ?_⟩
      intro agrees
      cases isDeclared : known.declared with
      | none => simp [declare, isShape, isDeclared]
      | some previous => simp [declare, isShape, isDeclared, agrees previous.1 previous.2 isDeclared]
    obtain ⟨next, idNext, firstAt, declared, accepts⟩ := taken
    cases isDeclared : known.declared with
    | none =>
      right
      refine ⟨fun _ _ _ => nofun, next, accepts ?_, idNext, firstAt, declared⟩
      rw [isDeclared]
      exact fun _ _ => nofun
    | some previous =>
      obtain ⟨s, place⟩ := previous
      by_cases same : s = t
      · right
        refine ⟨?_, next, accepts ?_, idNext, firstAt, declared⟩
        · intro s' place' t' given given'
          cases given
          cases given'
          exact same
        · intro s' place' given
          rw [isDeclared] at given
          cases given
          exact same
      · left
        exact ⟨s, place, t, rfl, rfl, same, by simp [declare, isShape, isDeclared, same]⟩

end Known

namespace Builder

/-- The builder has taken up the constructs. -/
structure Tracks (builder : Builder) (cs : List Construct) : Prop where
  places : builder.places = cs.filterMap block?
  mentioned : ∀ id, (builder.known.find? (·.id == id)).map Known.firstAt = mentioned? cs id
  declared : ∀ id, (builder.known.find? (·.id == id)).bind Known.declared = declared? cs id

variable {builder next : Builder}

theorem tracks_nil : Tracks {} [] :=
  ⟨rfl, fun _ => rfl, fun _ => rfl⟩

/-- Only the entry of the changed id is another one. -/
theorem find?_update {known : List Known} {declared : Known} (same : declared.id = id)
    (found : (known.find? (·.id == id)).isSome = true) (other : String) :
    (known.map fun old => if old.id == id then declared else old).find? (·.id == other) =
      if other = id then some declared else known.find? (·.id == other) := by
  have keeps : ((·.id == other) ∘ fun old : Known => if old.id == id then declared else old) =
      (·.id == other) := by
    funext old
    by_cases isOld : old.id = id <;> simp [isOld, same]
  rw [List.find?_map, keeps]
  by_cases isId : other = id
  · subst isId
    obtain ⟨old, isOld⟩ := Option.isSome_iff_exists.1 found
    have idOld := List.find?_some isOld
    simp only [isOld, Option.map_some, idOld, if_true]
  · rw [if_neg isId]
    cases isOld : known.find? (·.id == other) with
    | none => rfl
    | some old =>
      have idOld := Known.id_of_find? isOld
      simp [idOld, isId]

/-- A mention is refused for its shape, or changes what is known of its id and nothing else. -/
theorem mention_cases (builder : Builder) (owner : Option String) (node : NodeRef) :
    (∃ s place t, (builder.known.find? (·.id == node.id)).bind Known.declared = some (s, place) ∧
      node.shape = some t ∧ s ≠ t ∧
      builder.mention owner node = .error (.shapes node.id s place t node.span.start)) ∨
    (∀ s place t, (builder.known.find? (·.id == node.id)).bind Known.declared = some (s, place) →
      node.shape = some t → s = t) ∧
      ∃ next declared, builder.mention owner node = .ok next ∧ next.places = builder.places ∧
        (∀ id, next.known.find? (·.id == id) =
          if id = node.id then some declared else builder.known.find? (·.id == id)) ∧
        declared.firstAt =
          ((builder.known.find? (·.id == node.id)).map Known.firstAt).getD node.span.start ∧
        declared.declared = (node.shape.map fun shape => (shape, node.span.start)).or
          ((builder.known.find? (·.id == node.id)).bind Known.declared) := by
  cases found : builder.known.find? (·.id == node.id) with
  | some known =>
    have idKnown := Known.id_of_find? found
    rcases known.declare_cases node with ⟨s, place, t, isDeclared, isShape, differ, refused⟩ |
      ⟨agrees, declared, accepted, idDeclared, firstAt, isDeclared⟩
    · left
      refine ⟨s, place, t, isDeclared, isShape, differ, ?_⟩
      simp [mention, found, refused, idKnown, bind, Except.bind]
    · right
      refine ⟨agrees, { builder with
        known := builder.known.map fun old => if old.id == node.id then declared else old }, declared, ?_, ?_⟩
      · simp only [mention, found, accepted, bind, Except.bind, pure, Except.pure]
      · refine ⟨rfl, ?_, firstAt, isDeclared⟩
        exact find?_update (idDeclared.trans idKnown) (by rw [found]; rfl)
  | none =>
    right
    rcases Known.declare_cases { id := node.id, firstAt := node.span.start } node with
      ⟨s, place, t, isDeclared, -⟩ | ⟨-, declared, accepted, idDeclared, firstAt, isDeclared⟩
    · cases isDeclared
    · refine ⟨fun _ _ _ => nofun, { builder with
        known := builder.known ++ [declared]
        subgraphs := update builder.subgraphs owner fun subgraph =>
          { subgraph with members := subgraph.members ++ [node.id] } }, declared, ?_, ?_⟩
      · simp only [mention, found, accepted, bind, Except.bind, pure, Except.pure]
      · refine ⟨rfl, ?_, firstAt, isDeclared⟩
        intro id
        rw [List.find?_append]
        by_cases isId : id = node.id
        · subst isId
          simp [found, idDeclared]
        · have differ : (declared.id == id) = false := by
            rw [idDeclared]
            exact beq_false_of_ne (Ne.symm isId)
          simp [isId, differ]

theorem tracks_mention (tracks : Tracks builder cs) (owner : Option String) (node : NodeRef) :
    (∃ s place t, declared? cs node.id = some (s, place) ∧ node.shape = some t ∧ s ≠ t ∧
      builder.mention owner node = .error (.shapes node.id s place t node.span.start)) ∨
    (∀ s place t, declared? cs node.id = some (s, place) → node.shape = some t → s = t) ∧
      ∃ next, builder.mention owner node = .ok next ∧ Tracks next (cs ++ [.ref node]) := by
  have cases := builder.mention_cases owner node
  rw [tracks.declared, tracks.mentioned] at cases
  refine cases.imp_right ?_
  rintro ⟨agrees, next, declared, accepted, places, found, firstAt, isDeclared⟩
  refine ⟨agrees, next, accepted, ?_, ?_, ?_⟩
  · rw [places, tracks.places, List.filterMap_append]
    simp [block?]
  · intro id
    rw [found, mentioned?_append]
    by_cases isId : id = node.id
    · subst isId
      rw [if_pos rfl, Option.map_some, firstAt]
      cases mentioned? cs node.id <;> simp [mentions?]
    · rw [if_neg isId, tracks.mentioned]
      simp [mentions?, Ne.symm isId]
  · intro id
    rw [found, declared?_append]
    by_cases isId : id = node.id
    · subst isId
      rw [if_pos rfl, Option.bind_some, isDeclared]
      simp [declares?]
    · rw [if_neg isId, tracks.declared]
      simp [declares?, Ne.symm isId]

theorem tracks_open (tracks : Tracks builder cs) (owner : Option String) (id : String)
    (title : Option String) (place : Position) :
    (∃ firstAt, (cs.filterMap block?).lookup id = some firstAt ∧
      builder.open_ owner id title place = .error (.duplicate id firstAt place)) ∨
    (cs.filterMap block?).lookup id = none ∧
      ∃ next, builder.open_ owner id title place = .ok next ∧ Tracks next (cs ++ [.block id place]) := by
  rw [← tracks.places]
  cases found : builder.places.lookup id with
  | some firstAt => exact .inl ⟨firstAt, rfl, by simp [open_, found]⟩
  | none =>
    refine .inr ⟨rfl, { builder with
      subgraphs := update (builder.subgraphs ++ [{ id, title }]) owner fun subgraph =>
        { subgraph with children := subgraph.children ++ [id] }
      places := builder.places ++ [(id, place)] }, by simp [open_, found], ?_, ?_, ?_⟩
    · rw [List.filterMap_append, ← tracks.places]
      rfl
    · intro other
      rw [mentioned?_append, ← tracks.mentioned]
      simp [mentions?]
    · intro other
      rw [declared?_append, ← tracks.declared]
      simp [declares?]

end Builder

/-- The conflict that an error is about, between two constructs in the order of the document. -/
inductive Detected (cs : List Construct) : Construct → Construct → GraphError → Prop where
  | shapes {pre mid post : List Construct} {first second : NodeRef} {s t : Shape} :
      cs = pre ++ .ref first :: mid ++ .ref second :: post → Consistent (pre ++ .ref first :: mid) →
      first.id = second.id → first.shape = some s → second.shape = some t → s ≠ t →
      (∀ c ∈ mid, declares? second.id c = none) →
      Detected cs (.ref first) (.ref second) (.shapes second.id s first.span.start t second.span.start)
  | duplicate {pre mid post : List Construct} {id : String} {firstAt secondAt : Position} :
      cs = pre ++ .block id firstAt :: mid ++ .block id secondAt :: post →
      Consistent (pre ++ .block id firstAt :: mid) →
      Detected cs (.block id firstAt) (.block id secondAt) (.duplicate id firstAt secondAt)
  | sharedId {pre post pre' post' : List Construct} {first second : Construct} {node : NodeRef}
      {place : Position} :
      Consistent cs → [first, second].Sublist cs →
      (first = .block node.id place ∧ second = .ref node ∨ first = .ref node ∧ second = .block node.id place) →
      cs = pre ++ .block node.id place :: post →
      (∀ id place, .block id place ∈ pre → mentioned? cs id = none) →
      cs = pre' ++ .ref node :: post' → (∀ c ∈ pre', mentions? node.id c = none) →
      Detected cs first second (.sharedId node.id place node.span.start)

theorem sublist_of_split {α : Type} (pre mid post : List α) (a b : α) :
    [a, b].Sublist (pre ++ a :: mid ++ b :: post) := by
  have front : [a].Sublist (pre ++ a :: mid) := List.singleton_sublist.2 (by simp)
  have back : [b].Sublist (b :: post) := List.singleton_sublist.2 List.mem_cons_self
  exact front.append back

theorem sublist_of_mem {α : Type} {l : List α} {a b : α} (isFirst : a ∈ l) (isSecond : b ∈ l) (differ : a ≠ b) :
    [a, b].Sublist l ∨ [b, a].Sublist l := by
  induction l with
  | nil => cases isFirst
  | cons c l ih =>
    rcases List.mem_cons.1 isFirst with rfl | memFirst <;> rcases List.mem_cons.1 isSecond with rfl | memSecond
    · exact absurd rfl differ
    · exact .inl (.cons_cons _ (List.singleton_sublist.2 memSecond))
    · exact .inr (.cons_cons _ (List.singleton_sublist.2 memFirst))
    · exact (ih memFirst memSecond).imp (.cons _) (.cons _)

theorem shape_of_consistent (consistent : Consistent cs) {first second : NodeRef} {s t : Shape}
    (isFirst : .ref first ∈ cs) (isSecond : .ref second ∈ cs) (same : first.id = second.id)
    (isShape : first.shape = some s) (isOther : second.shape = some t) : s = t := by
  refine Decidable.byContradiction fun differ => ?_
  have apart : Construct.ref first ≠ .ref second := by
    rintro ⟨⟩
    exact differ (Option.some.inj (isShape.symm.trans isOther))
  have clashes : Clashes (.ref first) (.ref second) := ⟨same, s, t, isShape, isOther, differ⟩
  have agree (a b : Construct) (inOrder : [a, b].Sublist cs) : ¬Clashes a b :=
    List.pairwise_iff_forall_sublist.1 consistent inOrder
  rcases sublist_of_mem isFirst isSecond apart with inOrder | inOrder
  · exact agree _ _ inOrder clashes
  · exact agree _ _ inOrder (clashes_comm clashes)

theorem consistent_append {c : Construct} (consistent : Consistent cs) (fits : ∀ d ∈ cs, ¬Clashes d c) :
    Consistent (cs ++ [c]) := by
  refine List.pairwise_append.2 ⟨consistent, List.pairwise_singleton _ _, ?_⟩
  intro d mem e isLast
  cases List.mem_singleton.1 isLast
  exact fits d mem

/-- A reference that agrees with the latest declaration agrees with all of them. -/
theorem fits_of_agrees (consistent : Consistent cs)
    (agrees : ∀ s place t, declared? cs node.id = some (s, place) → node.shape = some t → s = t) :
    ∀ c ∈ cs, ¬Clashes c (.ref node) := by
  intro c mem clashes
  cases c with
  | block => exact clashes
  | ref first =>
    obtain ⟨same, s, t, isShape, isOther, differ⟩ := clashes
    cases latest : declared? cs node.id with
    | none =>
      have none := List.findSome?_eq_none_iff.1 latest _ (List.mem_reverse.2 mem)
      simp [declares?, same, isShape] at none
    | some found =>
      obtain ⟨pre, last, mid, split, sameLast, isLast, -⟩ := declared?_eq_some latest
      have isMem : .ref last ∈ cs := by rw [split]; simp
      have eq := shape_of_consistent consistent mem isMem (same.trans sameLast.symm) isShape isLast
      exact differ (eq.trans (agrees _ _ t latest isOther))

theorem fits_of_lookup {place : Position} (free : (cs.filterMap block?).lookup id = none) :
    ∀ c ∈ cs, ¬Clashes c (.block id place) := by
  intro c mem clashes
  cases c with
  | ref => exact clashes
  | block other firstAt =>
    obtain rfl : other = id := clashes
    have isBlock : (other, firstAt) ∈ cs.filterMap block? := List.mem_filterMap.2 ⟨_, mem, rfl⟩
    have differ := List.lookup_eq_none_iff.1 free _ isBlock
    simp at differ

namespace Builder

variable {builder : Builder}

/-- An event is taken up, or its construct clashes with one taken up before. -/
theorem step_cases (tracks : Tracks builder cs) (consistent : Consistent cs) (event : Event) :
    (∃ error first second c, builder.step event = .error error ∧ ofEvent? event = some c ∧
      ∀ post, Detected (cs ++ c :: post) first second error) ∨
    ∃ next, builder.step event = .ok next ∧ Tracks next (cs ++ (ofEvent? event).toList) ∧
      Consistent (cs ++ (ofEvent? event).toList) := by
  cases event with
  | mention owner node =>
    rcases tracks_mention tracks owner node with ⟨s, place, t, declared, isShape, differ, refused⟩ |
      ⟨agrees, next, accepted, tracked⟩
    · left
      obtain ⟨pre, first, mid, rfl, same, isFirst, rfl, none⟩ := declared?_eq_some declared
      refine ⟨_, .ref first, .ref node, .ref node, refused, rfl, ?_⟩
      intro post
      exact .shapes rfl consistent same isFirst isShape differ none
    · right
      exact ⟨next, accepted, tracked, consistent_append consistent (fits_of_agrees consistent agrees)⟩
  | edge edge =>
    right
    refine ⟨{ builder with edges := builder.edges ++ [edge] }, rfl, ?_, ?_⟩
    · rw [show (ofEvent? (.edge edge)).toList = [] from rfl, List.append_nil]
      exact ⟨tracks.places, tracks.mentioned, tracks.declared⟩
    · simpa [ofEvent?] using consistent
  | block owner id title place =>
    rcases tracks_open tracks owner id title place with ⟨firstAt, found, refused⟩ | ⟨free, next, accepted, tracked⟩
    · left
      obtain ⟨front, behind, split, -⟩ := List.lookup_eq_some_iff.1 found
      have isBlock : (id, firstAt) ∈ cs.filterMap block? := by rw [split]; simp
      obtain ⟨c, mem, isBlock⟩ := List.mem_filterMap.1 isBlock
      cases c with
      | ref => cases isBlock
      | block other otherAt =>
        cases isBlock
        obtain ⟨pre, mid, rfl⟩ := List.append_of_mem mem
        exact ⟨_, .block id firstAt, .block id place, .block id place, refused, rfl,
          fun post => .duplicate rfl consistent⟩
    · right
      exact ⟨next, accepted, tracked, consistent_append consistent (fits_of_lookup free)⟩

/-- A run over events takes up all of their constructs, or ends at the first clash. -/
theorem run_cases (tracks : Tracks builder cs) (consistent : Consistent cs) (events : List Event) :
    (∃ error first second, events.foldlM step builder = .error error ∧
      Detected (cs ++ events.filterMap ofEvent?) first second error) ∨
    ∃ next, events.foldlM step builder = .ok next ∧ Tracks next (cs ++ events.filterMap ofEvent?) ∧
      Consistent (cs ++ events.filterMap ofEvent?) := by
  induction events generalizing builder cs with
  | nil =>
    right
    exact ⟨builder, rfl, by simpa using tracks, by simpa using consistent⟩
  | cons event events ih =>
    have whole : cs ++ (event :: events).filterMap ofEvent? =
        cs ++ (ofEvent? event).toList ++ events.filterMap ofEvent? := by
      cases isConstruct : ofEvent? event <;> simp [isConstruct]
    rw [List.foldlM_cons]
    rcases step_cases tracks consistent event with ⟨error, first, second, c, refused, isConstruct, detected⟩ |
      ⟨next, accepted, tracked, stillConsistent⟩
    · left
      refine ⟨error, first, second, by rw [refused]; rfl, ?_⟩
      simpa [isConstruct] using detected (events.filterMap ofEvent?)
    · rw [accepted, whole]
      exact ih tracked stillConsistent

theorem mentioned?_eq_some {place : Position} (h : mentioned? cs id = some place) :
    ∃ pre node post, cs = pre ++ .ref node :: post ∧ node.id = id ∧ node.span.start = place ∧
      ∀ c ∈ pre, mentions? id c = none := by
  obtain ⟨pre, c, post, split, mentions, none⟩ := List.findSome?_eq_some_iff.1 h
  cases c with
  | block => cases mentions
  | ref node =>
    simp only [mentions?] at mentions
    split at mentions
    · rename_i same
      cases mentions
      exact ⟨pre, node, post, split, same, rfl, none⟩
    · cases mentions

theorem mentioned?_isSome (mem : .ref node ∈ cs) : (mentioned? cs node.id).isSome = true := by
  refine List.findSome?_isSome_iff.2 ⟨_, mem, ?_⟩
  simp [mentions?]

/-- The blocks in front of a block are those that the builder lists in front of it. -/
theorem split_of_filterMap {front behind : List (String × Position)} {place : Position}
    (h : cs.filterMap block? = front ++ (id, place) :: behind) :
    ∃ pre post, cs = pre ++ .block id place :: post ∧ pre.filterMap block? = front := by
  obtain ⟨us, vs, rfl, isFront, isBehind⟩ := List.filterMap_eq_append_iff.1 h
  obtain ⟨ws, c, post, rfl, none, isBlock, -⟩ := List.filterMap_eq_cons_iff.1 isBehind
  cases c with
  | ref => cases isBlock
  | block other otherAt =>
    cases isBlock
    refine ⟨us ++ ws, post, by simp, ?_⟩
    rw [List.filterMap_append, isFront, List.filterMap_eq_nil_iff.2 none, List.append_nil]

/-- When all constructs are taken up, a block shares its id with a node, or none does. -/
theorem clash_cases (tracks : Tracks builder cs) (consistent : Consistent cs) :
    (∃ error first second, builder.clash? = some error ∧ Detected cs first second error) ∨
    builder.clash? = none ∧ ∀ id place, .block id place ∈ cs → mentioned? cs id = none := by
  cases found : builder.clash? with
  | none =>
    right
    refine ⟨rfl, ?_⟩
    intro id place mem
    have listed : (id, place) ∈ builder.places := by
      rw [tracks.places]
      exact List.mem_filterMap.2 ⟨_, mem, rfl⟩
    have free := List.findSome?_eq_none_iff.1 found _ listed
    rw [← tracks.mentioned, Option.map_eq_none_iff.1 free, Option.map_none]
  | some error =>
    left
    obtain ⟨front, ⟨id, place⟩, behind, places, isError, none⟩ := List.findSome?_eq_some_iff.1 found
    obtain ⟨known, isKnown, rfl⟩ := Option.map_eq_some_iff.1 isError
    rw [tracks.places] at places
    obtain ⟨pre, post, split, isFront⟩ := split_of_filterMap places
    have mentioned : mentioned? cs id = some known.firstAt := by rw [← tracks.mentioned, isKnown]; rfl
    obtain ⟨pre', node, post', split', rfl, firstAt, first⟩ := mentioned?_eq_some mentioned
    have isBlock : .block node.id place ∈ cs := by rw [split]; simp
    have isNode : .ref node ∈ cs := by rw [split']; simp
    have free (id : String) (place : Position) (mem : .block id place ∈ pre) : mentioned? cs id = Option.none := by
      have listed : (id, place) ∈ front := isFront ▸ List.mem_filterMap.2 ⟨_, mem, rfl⟩
      rw [← tracks.mentioned, Option.map_eq_none_iff.1 (none _ listed), Option.map_none]
    rw [← firstAt]
    rcases sublist_of_mem isBlock isNode nofun with inOrder | inOrder
    · exact ⟨_, _, _, rfl, .sharedId consistent inOrder (.inl ⟨rfl, rfl⟩) split free split' first⟩
    · exact ⟨_, _, _, rfl, .sharedId consistent inOrder (.inr ⟨rfl, rfl⟩) split free split' first⟩

end Builder

namespace Graph

theorem ofDiagram_cases (diagram : Diagram) :
    (∃ error first second, ofDiagram diagram = .error error ∧
      Detected diagram.constructs first second error) ∨
    ∃ graph, ofDiagram diagram = .ok graph ∧ Consistent diagram.constructs ∧
      ∀ id place, .block id place ∈ diagram.constructs → mentioned? diagram.constructs id = none := by
  have run := Builder.run_cases Builder.tracks_nil .nil diagram.events
  rw [diagram.filterMap_events, List.nil_append] at run
  rcases run with ⟨error, first, second, refused, detected⟩ | ⟨builder, accepted, tracks, consistent⟩
  · left
    refine ⟨error, first, second, ?_, detected⟩
    simp [ofDiagram, refused, bind, Except.bind]
  · rcases Builder.clash_cases tracks consistent with ⟨error, first, second, clash, detected⟩ | ⟨clash, free⟩
    · left
      refine ⟨error, first, second, ?_, detected⟩
      simp [ofDiagram, accepted, clash, bind, Except.bind]
      rfl
    · right
      refine ⟨⟨diagram.direction, builder.known.map Known.node, builder.edges, builder.subgraphs⟩, ?_,
        consistent, free⟩
      simp [ofDiagram, accepted, clash, bind, Except.bind, pure, Except.pure]

/-- The places that an error cites are those of the two constructs, the earlier one first. -/
theorem places_of_detected {first second : Construct} {error : GraphError}
    (ordered : (cs.map Construct.start).Pairwise fun first second => first.offset < second.offset)
    (detected : Detected cs first second error) :
    error.places = [first.start, second.start] ∧ first.start.offset < second.start.offset := by
  have behind (first second : Construct) (inOrder : [first, second].Sublist cs) :
      first.start.offset < second.start.offset :=
    List.pairwise_iff_forall_sublist.1 ordered (inOrder.map Construct.start)
  cases detected with
  | @shapes pre mid post a b s t split =>
    refine ⟨rfl, behind _ _ ?_⟩
    rw [split]
    exact sublist_of_split _ _ _ _ _
  | @duplicate pre mid post id firstAt secondAt split =>
    refine ⟨rfl, behind _ _ ?_⟩
    rw [split]
    exact sublist_of_split _ _ _ _ _
  | sharedId _ inOrder sides =>
    have before := behind _ _ inOrder
    rcases sides with ⟨rfl, rfl⟩ | ⟨rfl, rfl⟩
    · refine ⟨?_, before⟩
      rw [GraphError.places, if_neg]
      · rfl
      · exact Int.not_lt.2 (Int.le_of_lt before)
    · refine ⟨?_, before⟩
      rw [GraphError.places, if_pos]
      · rfl
      · exact before

end Graph

/-- Two references give one node different shapes, two blocks have one id, or a block and a node do. -/
def Conflicting (cs : List Construct) : Prop :=
  (∃ first second s t, .ref first ∈ cs ∧ .ref second ∈ cs ∧ first.id = second.id ∧
    first.shape = some s ∧ second.shape = some t ∧ s ≠ t) ∨
  (∃ id firstAt secondAt, [.block id firstAt, .block id secondAt].Sublist cs) ∨
  ∃ id place node, .block id place ∈ cs ∧ .ref node ∈ cs ∧ node.id = id

theorem conflicting_of_detected {first second : Construct} {error : GraphError}
    (detected : Detected cs first second error) : Conflicting cs := by
  cases detected with
  | @shapes pre mid post a b s t split _ same isFirst isSecond differ =>
    exact .inl ⟨a, b, s, t, by rw [split]; simp, by rw [split]; simp, same, isFirst, isSecond, differ⟩
  | @duplicate pre mid post id firstAt secondAt split =>
    refine .inr (.inl ⟨id, firstAt, secondAt, ?_⟩)
    rw [split]
    exact sublist_of_split _ _ _ _ _
  | @sharedId pre post pre' post' _ _ node place _ _ _ split _ split' =>
    exact .inr (.inr ⟨node.id, place, node, by rw [split]; simp, by rw [split']; simp, rfl⟩)

theorem not_conflicting (consistent : Consistent cs)
    (free : ∀ id place, .block id place ∈ cs → mentioned? cs id = none) : ¬Conflicting cs := by
  rintro (⟨first, second, s, t, isFirst, isSecond, same, isShape, isOther, differ⟩ |
    ⟨id, firstAt, secondAt, inOrder⟩ | ⟨id, place, node, isBlock, isNode, rfl⟩)
  · exact differ (shape_of_consistent consistent isFirst isSecond same isShape isOther)
  · exact List.pairwise_iff_forall_sublist.1 consistent inOrder rfl
  · have mentioned := Builder.mentioned?_isSome isNode
    rw [free _ _ isBlock] at mentioned
    cases mentioned

namespace Graph

/-- A diagram that was read has no graph just when it contradicts itself. The error is about the conflict
that the document shows first, and cites both of its constructs in the order of the source. -/
theorem ofDiagram_error_exact {source : String} {diagram : Diagram}
    (read : Diagram.ofSource source = .ok diagram) :
    ((∃ error, ofDiagram diagram = .error error) ↔ Conflicting diagram.constructs) ∧
      ∀ error, ofDiagram diagram = .error error →
        ∃ first second, Detected diagram.constructs first second error ∧
          error.failure.related = [first.start, second.start] ∧
          first.start.offset < second.start.offset ∧ error.failure.position = some second.start := by
  rcases ofDiagram_cases diagram with ⟨error, first, second, refused, detected⟩ |
    ⟨graph, accepted, consistent, free⟩
  · refine ⟨⟨fun _ => conflicting_of_detected detected, fun _ => ⟨error, refused⟩⟩, ?_⟩
    intro error' same
    rw [refused] at same
    cases same
    obtain ⟨places, ordered⟩ := places_of_detected (Diagram.constructs_ordered read) detected
    refine ⟨first, second, detected, places, ordered, ?_⟩
    rw [GraphError.failure, places]
    rfl
  · constructor
    · constructor
      · rintro ⟨error, refused⟩
        rw [accepted] at refused
        cases refused
      · intro conflicting
        exact absurd conflicting (not_conflicting consistent free)
    · intro error refused
      rw [accepted] at refused
      cases refused

theorem ofDiagram_error_exact_twoShapes :
    ∃ diagram error, Diagram.ofSource "graph\nA[x]\nA(y)" = .ok diagram ∧ ofDiagram diagram = .error error ∧
      ∃ first second, Detected diagram.constructs first second error ∧
        error.failure.related = [first.start, second.start] ∧
        first.start.offset < second.start.offset ∧ error.failure.position = some second.start := by
  have run : ((Diagram.ofSource "graph\nA[x]\nA(y)").toOption.map fun diagram =>
      (ofDiagram diagram).toOption.isNone) = some true := by decide +kernel
  cases read : Diagram.ofSource "graph\nA[x]\nA(y)" with
  | error failure =>
    rw [read] at run
    cases run
  | ok diagram =>
    rw [read] at run
    cases built : ofDiagram diagram with
    | ok graph => simp [Except.toOption, built] at run
    | error error => exact ⟨diagram, error, rfl, built, (ofDiagram_error_exact read).2 error built⟩

end Graph
end Flowchart
