import Flowchart.Editor
import Mathlib.Algebra.Order.Field.Rat
import Mathlib.Data.List.Chain
import Mathlib.Data.List.Induction
import Mathlib.Tactic.Linarith
import Mathlib.Tactic.NormNum

/-!
When an edit is shown. Of the texts that are typed only the latest is shown, once, and by the first tick for which it
has stood for the delay. The two numbers that the page keeps say this much because the number of the edit that is shown
never exceeds the number of texts that were typed.
-/
namespace Flowchart.Editor

/-- What happens on the page, with its moment on an exact clock, in seconds. -/
inductive Act where
  | type (code : String) (moment : Rat)
  | tick (moment : Rat)

namespace Act

def moment : Act → Rat
  | type _ moment | tick moment => moment

/-- What is typed, and when. -/
def typed? : Act → Option (String × Rat)
  | type code moment => some (code, moment)
  | tick _ => none

/-- When a tick comes. -/
def tick? : Act → Option Rat
  | type _ _ => none
  | tick moment => some moment

end Act

def State.act (debounceMs : Nat) (state : State Rat) : Act → State Rat
  | .type code now => state.type code now
  | .tick now => (state.tick debounceMs now).2

/-- The state of a new page after some acts. -/
def after (debounceMs : Nat) (acts : List Act) : State Rat :=
  acts.foldl (State.act debounceMs) {}

/-- What is shown by a tick that comes behind some acts. -/
def shown? (debounceMs : Nat) (acts : List Act) (now : Rat) : Option (Edit Rat) :=
  ((after debounceMs acts).tick debounceMs now).1

/-- The texts that were typed, in order. -/
def typed (acts : List Act) : List (String × Rat) :=
  acts.filterMap Act.typed?

def ticks (acts : List Act) : List Rat :=
  acts.filterMap Act.tick?

/-- The edit that came last. Its revision counts the edits up to it. -/
def latest? (acts : List Act) : Option (Edit Rat) :=
  (typed acts).getLast?.map fun (code, moment) => ⟨code, (typed acts).length, moment⟩

/-- A tick among the acts shows the edit at the given moment. -/
def ShownAt (debounceMs : Nat) (acts : List Act) (edit : Edit Rat) (now : Rat) : Prop :=
  ∃ front back, acts = front ++ .tick now :: back ∧ shown? debounceMs front now = some edit

def IsShown (debounceMs : Nat) (acts : List Act) (edit : Edit Rat) : Prop :=
  ∃ now, ShownAt debounceMs acts edit now

/-- The edit is made at the very moment of a tick, but behind it. -/
def MeetsTick (acts : List Act) (edit : Edit Rat) : Prop :=
  ∃ front back, acts = front ++ .type edit.code edit.moment :: back ∧ edit.revision = (typed front).length + 1 ∧
    .tick edit.moment ∈ front

/-- The clock never goes back. -/
def InOrder (acts : List Act) : Prop :=
  acts.Pairwise fun earlier later => earlier.moment ≤ later.moment

/-- The ticks come some milliseconds apart, and so they do throughout: the first of them comes before an interval has
passed since anything happened. -/
structure Ticking (intervalMs : Nat) (acts : List Act) : Prop where
  apart : (ticks acts).IsChain fun earlier later => (later - earlier) * 1000 = (intervalMs : Rat)
  throughout : ∀ first ∈ (ticks acts).head?, ∀ act ∈ acts, (first - act.moment) * 1000 < intervalMs

/-- Which ticks show what. -/
structure Settles (settings : Settings) (acts : List Act) : Prop where
  /-- A tick shows an edit if and only if it is the latest one, is not shown yet, and has stood for the delay. -/
  shows : ∀ front (now : Rat) back, acts = front ++ .tick now :: back → ∀ edit,
    shown? settings.debounceMs front now = some edit ↔
      latest? front = some edit ∧ ¬IsShown settings.debounceMs front edit ∧
        (settings.debounceMs : Rat) ≤ (now - edit.moment) * 1000
  /-- Of two edits that are shown the second is a later one. -/
  ascends : ∀ front (now : Rat) between later back, acts = front ++ .tick now :: between ++ .tick later :: back →
    ∀ edit other, shown? settings.debounceMs front now = some edit →
      shown? settings.debounceMs (front ++ .tick now :: between) later = some other → edit.revision < other.revision
  /-- The first tick that comes no sooner than the delay behind an edit, with no other edit since, shows it. -/
  prompt : ∀ front code (moment : Rat) between now back,
    acts = front ++ .type code moment :: between ++ .tick now :: back →
      (∀ act ∈ between, ∃ early, act = .tick early ∧ (early - moment) * 1000 < (settings.debounceMs : Rat)) →
        (settings.debounceMs : Rat) ≤ (now - moment) * 1000 →
          shown? settings.debounceMs (front ++ .type code moment :: between) now =
            some ⟨code, (typed front).length + 1, moment⟩
  /-- Ticks that go on until the delay of the last edit has passed show it less than an interval later, unless there
  is no delay and the edit meets a tick: then a whole interval later. -/
  timely : Ticking (tickInterval settings) acts → ∀ edit last, latest? acts = some edit →
    acts.getLast? = some (.tick last) → (settings.debounceMs : Rat) ≤ (last - edit.moment) * 1000 →
      ∃ now, ShownAt settings.debounceMs acts edit now ∧
        ((now - edit.moment) * 1000 < settings.debounceMs + tickInterval settings ∨
          settings.debounceMs = 0 ∧ MeetsTick acts edit ∧ (now - edit.moment) * 1000 = tickInterval settings)

variable {debounceMs : Nat} {acts front between : List Act} {act : Act} {edit other : Edit Rat} {now moment : Rat}
  {code : String}

theorem settled?_eq_some {state : State Rat} : state.settled? debounceMs now = some edit ↔
    state.pending = some edit ∧ edit.revision ≠ state.rendered ∧ debounceMs ≤ (now - edit.moment) * 1000 := by
  have thousand : (1000.0 : Rat) = 1000 := by norm_num
  rw [State.settled?, Option.filter_eq_some_iff, Bool.and_eq_true, bne_iff_ne, Bool.not_eq_true',
    decide_eq_false_iff_not, thousand]
  exact and_congr_right fun _ => and_congr_right fun _ => not_lt

theorem shown?_eq (acts : List Act) (now : Rat) :
    shown? debounceMs acts now = (after debounceMs acts).settled? debounceMs now := by
  rw [shown?, State.tick]
  split <;> simp [*]

theorem after_concat (acts : List Act) (act : Act) :
    after debounceMs (acts ++ [act]) = (after debounceMs acts).act debounceMs act := by
  rw [after, List.foldl_append]
  rfl

theorem typed_append (front back : List Act) : typed (front ++ back) = typed front ++ typed back :=
  List.filterMap_append

theorem ticks_append (front back : List Act) : ticks (front ++ back) = ticks front ++ ticks back :=
  List.filterMap_append

theorem latest?_type (acts : List Act) (code : String) (moment : Rat) :
    latest? (acts ++ [.type code moment]) = some ⟨code, (typed acts).length + 1, moment⟩ := by
  rw [latest?, typed_append]
  simp [typed, Act.typed?]

theorem typed_ticks (quiet : ∀ act ∈ between, act.typed? = none) : typed between = [] :=
  List.filterMap_eq_nil_iff.2 quiet

/-- Ticks do not change which edit came last. -/
theorem latest?_append (quiet : ∀ act ∈ between, act.typed? = none) :
    latest? (front ++ between) = latest? front := by
  rw [latest?, latest?, typed_append, typed_ticks quiet, List.append_nil]

theorem latest?_tick (acts : List Act) (now : Rat) : latest? (acts ++ [.tick now]) = latest? acts :=
  latest?_append fun _ mem => List.mem_singleton.1 mem ▸ rfl

theorem revision_eq (isLatest : latest? acts = some edit) : edit.revision = (typed acts).length := by
  obtain ⟨last, -, rfl⟩ := Option.map_eq_some_iff.1 isLatest
  rfl

theorem isShown_concat : IsShown debounceMs (acts ++ [act]) edit ↔
    IsShown debounceMs acts edit ∨ ∃ now, act = .tick now ∧ shown? debounceMs acts now = some edit := by
  constructor
  · rintro ⟨now, front, back, split, shows⟩
    rcases List.eq_nil_or_concat back with rfl | ⟨back, last, rfl⟩
    · obtain ⟨rfl, isTick⟩ := List.append_inj' split rfl
      exact .inr ⟨now, (List.cons.inj isTick).1, shows⟩
    · rw [List.concat_eq_append, ← List.cons_append, ← List.append_assoc] at split
      obtain ⟨rfl, -⟩ := List.append_inj' split rfl
      exact .inl ⟨now, front, back, rfl, shows⟩
  · rintro (⟨now, front, back, rfl, shows⟩ | ⟨now, rfl, shows⟩)
    · exact ⟨now, front, back ++ [act], by simp, shows⟩
    · exact ⟨now, acts, [], rfl, shows⟩

/-- What the two numbers of the page tell. -/
structure Tracks (debounceMs : Nat) (acts : List Act) : Prop where
  pending : (after debounceMs acts).pending = latest? acts
  bound : (after debounceMs acts).rendered ≤ (typed acts).length
  shown : ∀ edit, latest? acts = some edit →
    (IsShown debounceMs acts edit ↔ edit.revision = (after debounceMs acts).rendered)
  /-- What was shown is no later edit than the last one. -/
  past : ∀ edit, IsShown debounceMs acts edit → edit.revision ≤ (typed acts).length

theorem tracks_nil : Tracks debounceMs [] where
  pending := rfl
  bound := Nat.le_refl _
  shown := nofun
  past := by
    rintro edit ⟨now, front, back, split, -⟩
    cases front <;> cases split

theorem Tracks.settled_iff (tracks : Tracks debounceMs acts) : shown? debounceMs acts now = some edit ↔
    latest? acts = some edit ∧ ¬IsShown debounceMs acts edit ∧ debounceMs ≤ (now - edit.moment) * 1000 := by
  rw [shown?_eq, settled?_eq_some, tracks.pending]
  refine and_congr_right fun isLatest => and_congr_left' ?_
  rw [tracks.shown edit isLatest]

theorem Tracks.type (tracks : Tracks debounceMs acts) (code : String) (moment : Rat) :
    Tracks debounceMs (acts ++ [.type code moment]) where
  pending := by
    rw [after_concat, latest?_type]
    show some (Edit.next (after debounceMs acts).pending code moment) = _
    rw [tracks.pending, Edit.next, latest?]
    cases isLast : (typed acts).getLast? with
    | none => simp [List.getLast?_eq_none_iff.1 isLast]
    | some last => rfl
  bound := by
    rw [after_concat, typed_append, List.length_append]
    exact Nat.le_add_right_of_le tracks.bound
  shown edit isLatest := by
    rw [latest?_type] at isLatest
    cases isLatest
    rw [after_concat, isShown_concat]
    have unshown : ¬IsShown debounceMs acts ⟨code, (typed acts).length + 1, moment⟩ := by
      intro isShown
      exact Nat.not_succ_le_self _ (tracks.past _ isShown)
    have later : (typed acts).length + 1 ≠ (after debounceMs acts).rendered :=
      Nat.ne_of_gt (Nat.lt_succ_of_le tracks.bound)
    simp [unshown, State.act, State.type, later]
  past edit isShown := by
    rw [isShown_concat] at isShown
    rw [typed_append, List.length_append]
    rcases isShown with before | ⟨now, isTick, -⟩
    · exact Nat.le_add_right_of_le (tracks.past edit before)
    · cases isTick

theorem Tracks.tick (tracks : Tracks debounceMs acts) (now : Rat) : Tracks debounceMs (acts ++ [.tick now]) := by
  have same : typed (acts ++ [.tick now]) = typed acts := by simp [typed, Act.typed?]
  have past (edit : Edit Rat) (isShown : IsShown debounceMs (acts ++ [.tick now]) edit) :
      edit.revision ≤ (typed (acts ++ [.tick now])).length := by
    rw [same]
    rcases isShown_concat.1 isShown with before | ⟨_, -, shows⟩
    · exact tracks.past edit before
    · exact Nat.le_of_eq (revision_eq (tracks.settled_iff.1 shows).1)
  cases settled : (after debounceMs acts).settled? debounceMs now with
  | none =>
    have unchanged : after debounceMs (acts ++ [.tick now]) = after debounceMs acts := by
      rw [after_concat, State.act, State.tick, settled]
    have quiet : shown? debounceMs acts now = none := by rw [shown?_eq, settled]
    refine ⟨?_, ?_, ?_, past⟩
    · rw [unchanged, latest?_tick]
      exact tracks.pending
    · rw [unchanged, same]
      exact tracks.bound
    · intro edit isLatest
      rw [latest?_tick] at isLatest
      rw [unchanged, isShown_concat, ← tracks.shown edit isLatest]
      refine or_iff_left ?_
      rintro ⟨_, isTick, shows⟩
      cases isTick
      rw [quiet] at shows
      cases shows
  | some edit =>
    have shows : shown? debounceMs acts now = some edit := by rw [shown?_eq, settled]
    have isLatest := (tracks.settled_iff.1 shows).1
    have moves : after debounceMs (acts ++ [.tick now]) =
        { after debounceMs acts with rendered := edit.revision } := by
      rw [after_concat, State.act, State.tick, settled]
    refine ⟨?_, ?_, ?_, past⟩
    · rw [moves, latest?_tick]
      exact tracks.pending
    · rw [moves, same]
      exact Nat.le_of_eq (revision_eq isLatest)
    · intro other isOther
      rw [latest?_tick, isLatest] at isOther
      cases isOther
      rw [moves, isShown_concat]
      exact iff_of_true (.inr ⟨now, rfl, shows⟩) rfl

theorem tracks (debounceMs : Nat) (acts : List Act) : Tracks debounceMs acts := by
  induction acts using List.reverseRecOn with
  | nil => exact tracks_nil
  | append_singleton acts act ih =>
    cases act with
    | type code moment => exact ih.type code moment
    | tick now => exact ih.tick now

/-- An edit is not shown by ticks that come before its delay has passed. -/
theorem not_isShown_early (early : ∀ act ∈ between, ∃ now, act = .tick now ∧ (now - moment) * 1000 < debounceMs) :
    ¬IsShown debounceMs (front ++ .type code moment :: between) ⟨code, (typed front).length + 1, moment⟩ := by
  induction between using List.reverseRecOn with
  | nil =>
    rw [isShown_concat]
    rintro (before | ⟨_, isTick, -⟩)
    · exact Nat.not_succ_le_self _ ((tracks debounceMs front).past _ before)
    · cases isTick
  | append_singleton between act ih =>
    obtain ⟨before, now⟩ := List.forall_mem_append.1 early
    rw [← List.cons_append, ← List.append_assoc, isShown_concat]
    rintro (isShown | ⟨moment', rfl, shows⟩)
    · exact ih before isShown
    · obtain ⟨tick, isTick, soon⟩ := now _ (List.mem_singleton_self _)
      cases isTick
      have late := ((tracks debounceMs _).settled_iff.1 shows).2.2
      linarith

theorem latest?_behind (quiet : ∀ act ∈ between, act.typed? = none) :
    latest? (front ++ .type code moment :: between) = some ⟨code, (typed front).length + 1, moment⟩ := by
  rw [← List.singleton_append, ← List.append_assoc, latest?_append quiet, latest?_type]

theorem shown?_of_late (early : ∀ act ∈ between, ∃ now, act = .tick now ∧ (now - moment) * 1000 < debounceMs)
    (late : debounceMs ≤ (now - moment) * 1000) :
    shown? debounceMs (front ++ .type code moment :: between) now =
      some ⟨code, (typed front).length + 1, moment⟩ := by
  refine (tracks debounceMs _).settled_iff.2 ⟨latest?_behind ?_, not_isShown_early early, late⟩
  intro act mem
  obtain ⟨_, rfl, -⟩ := early act mem
  rfl

/-- Of two edits that are shown the second is a later one. -/
theorem revision_lt {later : Rat} (first : shown? debounceMs front now = some edit)
    (second : shown? debounceMs (front ++ .tick now :: between) later = some other) :
    edit.revision < other.revision := by
  obtain ⟨isLatest, -, -⟩ := (tracks debounceMs _).settled_iff.1 first
  obtain ⟨isOther, unshown, -⟩ := (tracks debounceMs _).settled_iff.1 second
  have counts : typed (front ++ .tick now :: between) = typed front ++ typed between := by
    rw [typed_append]
    rfl
  rw [revision_eq isLatest, revision_eq isOther, counts, List.length_append]
  by_contra none
  have quiet : typed between = [] := List.eq_nil_iff_length_eq_zero.2 (by omega)
  rw [latest?, counts, quiet, List.append_nil, ← latest?, isLatest] at isOther
  cases isOther
  exact unshown ⟨now, front, between, rfl, first⟩

/-- The last edit with the acts in front of it; behind it there are ticks only. -/
theorem exists_latest (isLatest : latest? acts = some edit) : ∃ front between,
    acts = front ++ .type edit.code edit.moment :: between ∧ edit.revision = (typed front).length + 1 ∧
      ∀ act ∈ between, ∃ now, act = .tick now := by
  induction acts using List.reverseRecOn with
  | nil => cases isLatest
  | append_singleton acts act ih =>
    cases act with
    | type code moment =>
      rw [latest?_type] at isLatest
      cases isLatest
      exact ⟨acts, [], rfl, rfl, List.forall_mem_nil _⟩
    | tick now =>
      rw [latest?_tick] at isLatest
      obtain ⟨front, between, rfl, revision, areTicks⟩ := ih isLatest
      refine ⟨front, between ++ [.tick now], by simp, revision, ?_⟩
      exact List.forall_mem_append.2 ⟨areTicks, List.forall_mem_singleton.2 ⟨now, rfl⟩⟩

/-- The last edit is shown by the first tick for which it has stood for the delay. -/
theorem exists_first_late {last : Rat} (isLatest : latest? acts = some edit)
    (isLast : acts.getLast? = some (.tick last)) (late : debounceMs ≤ (last - edit.moment) * 1000) :
    ∃ front early now back, acts = front ++ .type edit.code edit.moment :: early ++ .tick now :: back ∧
      edit.revision = (typed front).length + 1 ∧
      (∀ act ∈ early, ∃ tick, act = .tick tick ∧ (tick - edit.moment) * 1000 < debounceMs) ∧
        shown? debounceMs (front ++ .type edit.code edit.moment :: early) now = some edit := by
  obtain ⟨front, between, rfl, revision, areTicks⟩ := exists_latest isLatest
  have isBetween : .tick last ∈ between := by
    rcases List.eq_nil_or_concat between with rfl | ⟨between, act, rfl⟩
    · simp at isLast
    · rw [List.concat_eq_append, ← List.cons_append, ← List.append_assoc, List.getLast?_concat] at isLast
      rw [List.concat_eq_append, ← Option.some.inj isLast]
      exact List.mem_append_right _ (List.mem_singleton_self _)
  have found : (between.find? fun act => decide ((debounceMs : Rat) ≤ (act.moment - edit.moment) * 1000)).isSome :=
    List.find?_isSome.2 ⟨_, isBetween, decide_eq_true late⟩
  obtain ⟨act, isFirst⟩ := Option.isSome_iff_exists.1 found
  obtain ⟨isLate, early, back, rfl, areEarly⟩ := List.find?_eq_some_iff_append.1 isFirst
  obtain ⟨now, rfl⟩ := areTicks act (by simp)
  have soon : ∀ act ∈ early, ∃ tick, act = .tick tick ∧ (tick - edit.moment) * 1000 < debounceMs := by
    intro act mem
    obtain ⟨tick, rfl⟩ := areTicks act (List.mem_append_left _ mem)
    have notLate := areEarly _ mem
    rw [Bool.not_eq_true', decide_eq_false_iff_not, not_le] at notLate
    exact ⟨tick, rfl, notLate⟩
  have isLate : debounceMs ≤ (now - edit.moment) * 1000 := of_decide_eq_true isLate
  refine ⟨front, early, now, back, by simp, revision, soon, ?_⟩
  rw [shown?_of_late soon isLate, ← revision]

theorem mem_ticks : now ∈ ticks acts ↔ .tick now ∈ acts := by
  rw [ticks, List.mem_filterMap]
  constructor
  · rintro ⟨act, mem, isTick⟩
    cases act with
    | type => cases isTick
    | tick moment =>
      cases isTick
      exact mem
  · exact fun mem => ⟨_, mem, rfl⟩

namespace Ticking

variable {intervalMs : Nat} {back : List Act}

/-- The tick in front of another one comes an interval earlier. -/
theorem exists_before (ticking : Ticking intervalMs (front ++ .tick now :: back)) (some : ticks front ≠ []) :
    ∃ before, .tick before ∈ front ∧ (now - before) * 1000 = intervalMs := by
  rcases List.eq_nil_or_concat (ticks front) with none | ⟨rest, before, split⟩
  · exact absurd none some
  · rw [List.concat_eq_append] at split
    have isBefore : before ∈ ticks front := split ▸ List.mem_append_right _ (List.mem_singleton_self _)
    have chain := ticking.apart
    rw [ticks_append, split, List.append_assoc] at chain
    exact ⟨before, mem_ticks.1 isBefore, (List.isChain_append_cons_cons.1 chain).2.1⟩

/-- The first tick behind the delay of an edit comes less than an interval after it, unless there is no delay and the
tick in front of the edit has its moment. -/
theorem near (ticking : Ticking intervalMs (front ++ .type code moment :: between ++ .tick now :: back))
    (inOrder : InOrder (front ++ .type code moment :: between ++ .tick now :: back))
    (early : ∀ act ∈ between, ∃ tick, act = .tick tick ∧ (tick - moment) * 1000 < debounceMs) :
    (now - moment) * 1000 < debounceMs + intervalMs ∨
      debounceMs = 0 ∧ (now - moment) * 1000 = intervalMs ∧ .tick moment ∈ front := by
  have delay : (0 : Rat) ≤ debounceMs := Nat.cast_nonneg _
  by_cases none : ticks (front ++ .type code moment :: between) = []
  · left
    have isFirst : (ticks (front ++ .type code moment :: between ++ .tick now :: back)).head? = some now := by
      rw [ticks_append, none]
      rfl
    have soon := ticking.throughout now isFirst (.type code moment) (by simp)
    simp only [Act.moment] at soon
    linarith
  obtain ⟨before, mem, apart⟩ := ticking.exists_before none
  rcases List.mem_append.1 mem with isFront | isBetween
  · rw [InOrder, List.append_assoc] at inOrder
    have notLater : before ≤ moment :=
      (List.pairwise_append.1 inOrder).2.2 _ isFront (.type code moment) (by simp)
    rcases notLater.lt_or_eq with sooner | rfl
    · left
      linarith
    · rcases Nat.eq_zero_or_pos debounceMs with none | positive
      · exact .inr ⟨none, apart, isFront⟩
      · have positive : (0 : Rat) < debounceMs := Nat.cast_pos.2 positive
        left
        linarith
  · left
    rcases List.mem_cons.1 isBetween with isType | isEarly
    · cases isType
    · obtain ⟨tick, isTick, soon⟩ := early _ isEarly
      cases isTick
      linarith

end Ticking

theorem settles_inOrder (settings : Settings) (inOrder : InOrder acts) : Settles settings acts := by
  constructor
  case shows =>
    rintro front now back - edit
    exact (tracks settings.debounceMs front).settled_iff
  case ascends =>
    rintro front now between later back - edit other first second
    exact revision_lt first second
  case prompt =>
    rintro front code moment between now back - early late
    exact shown?_of_late early late
  case timely =>
    intro ticking edit last isLatest isLast late
    obtain ⟨front, early, now, back, rfl, revision, areEarly, shows⟩ := exists_first_late isLatest isLast late
    refine ⟨now, ⟨_, back, rfl, shows⟩, ?_⟩
    rcases ticking.near inOrder areEarly with near | ⟨noDelay, apart, same⟩
    · exact .inl near
    · exact .inr ⟨noDelay, ⟨front, early ++ .tick now :: back, by simp, revision, same⟩, apart⟩

/-- Two edits in quick succession, between ticks that come 150 ms apart. -/
theorem settles_inOrder_burst : ∃ acts, acts = [.tick 0, .type "graph TD\nA" (1 / 10), .tick (3 / 20),
      .type "graph TD\nB" (1 / 5), .tick (3 / 10), .tick (9 / 20), .tick (3 / 5)] ∧
    InOrder acts ∧ Ticking (tickInterval .standard) acts ∧ latest? acts = some ⟨"graph TD\nB", 2, 1 / 5⟩ ∧
      Settles .standard acts := by
  refine ⟨_, rfl, ?inOrder, ?ticking, rfl, settles_inOrder _ ?inOrder⟩
  case inOrder => norm_num [InOrder, Act.moment]
  case ticking =>
    have interval : tickInterval .standard = 150 := rfl
    constructor
    · show List.IsChain _ [0, 3 / 20, 3 / 10, 9 / 20, 3 / 5]
      norm_num [interval]
    · intro first isFirst
      obtain rfl := Option.some.inj isFirst
      norm_num [Act.moment, interval]

/-- Without a delay, an edit that meets a tick is shown a whole interval later, and not less. -/
theorem not_sooner_of_meetsTick : ∃ (settings : Settings) (acts : List Act) (edit : Edit Rat) (last : Rat),
    settings.debounceMs = 0 ∧ acts = [.tick 0, .type "graph TD\nA" 0, .tick (1 / 20)] ∧ InOrder acts ∧
      Ticking (tickInterval settings) acts ∧ latest? acts = some edit ∧ acts.getLast? = some (.tick last) ∧
        settings.debounceMs ≤ (last - edit.moment) * 1000 ∧
          ¬∃ now, ShownAt settings.debounceMs acts edit now ∧
            (now - edit.moment) * 1000 < settings.debounceMs + tickInterval settings := by
  refine ⟨{ debounceMs := 0 }, _, ⟨"graph TD\nA", 1, 0⟩, 1 / 20, rfl, rfl, ?inOrder, ?ticking, rfl, rfl, ?late, ?never⟩
  case inOrder => norm_num [InOrder, Act.moment]
  case ticking =>
    have interval : tickInterval { debounceMs := 0 } = 50 := rfl
    constructor
    · show List.IsChain _ [0, 1 / 20]
      norm_num [interval]
    · intro first isFirst
      obtain rfl := Option.some.inj isFirst
      norm_num [Act.moment, interval]
  case late => norm_num
  case never =>
    have interval : tickInterval { debounceMs := 0 } = 50 := rfl
    rintro ⟨now, ⟨front, back, split, shows⟩, soon⟩
    rw [interval] at soon
    -- the tick is one of two: the first shows nothing, and the second comes too late
    match front with
    | [] => cases shows
    | [_] => cases split
    | [_, _] =>
      cases split
      norm_num at soon
    | _ :: _ :: _ :: front => simp at split

end Flowchart.Editor
