import Flowchart.Svg.Label
import Mathlib.Data.List.Basic
import Mathlib.Data.List.Infix

/-!
What a strict label loses: the characters of every stretch from a less-than sign to the next greater-than sign, and
no others. A comparison that is written with both signs is such a stretch as much as a markup tag is, and so a label
keeps all that stands outside its tags exactly if every stretch that goes is a tag.
-/
namespace Flowchart.Svg

variable {kind : List Char → Prop} {cs front behind body rest stretch : List Char} {place : Nat}

/-- A less-than sign with what follows it up to the next greater-than sign. -/
def IsBracketed (stretch : List Char) : Prop :=
  ∃ body, stretch = '<' :: body ++ ['>'] ∧ '>' ∉ body

/-- What follows the less-than sign of a tag. Which characters are letters is left open. -/
def opensMarkup (isLetter : Char → Bool) (c : Char) : Bool :=
  isLetter c || c = '/' || c = '!' || c = '?'

def IsMarkup (isLetter : Char → Bool) (stretch : List Char) : Prop :=
  ∃ c body, stretch = '<' :: c :: body ++ ['>'] ∧ '>' ∉ c :: body ∧ opensMarkup isLetter c = true

/-- A place of a text belongs to a stretch of a given kind. -/
def Covered (kind : List Char → Prop) (cs : List Char) (place : Nat) : Prop :=
  ∃ front stretch behind, cs = front ++ stretch ++ behind ∧ kind stretch ∧ front.length ≤ place ∧
    place < front.length + stretch.length

open Classical in
/-- The characters of a text, in order, whose places belong to no stretch of a given kind. -/
noncomputable def outside (kind : List Char → Prop) (cs : List Char) : List Char :=
  (cs.zipIdx.filter fun (_, place) => ¬Covered kind cs place).map Prod.fst

/-- No less-than sign of the text waits for its greater-than sign. -/
def IsSettled (cs : List Char) : Prop :=
  ∀ front behind, cs = front ++ '<' :: behind → '>' ∈ behind

/-- A bracketed stretch of a text that opens where no less-than sign waits. -/
def Taken (cs stretch : List Char) : Prop :=
  ∃ front behind, cs = front ++ stretch ++ behind ∧ IsBracketed stretch ∧ IsSettled front

section behindTag?

theorem behindTag?_eq_some (found : behindTag? cs = some rest) : ∃ body, cs = body ++ '>' :: rest ∧ '>' ∉ body := by
  fun_induction behindTag? cs with
  | case1 => cases found
  | case2 cs =>
    cases found
    exact ⟨[], rfl, List.not_mem_nil⟩
  | case3 c cs other ih =>
    obtain ⟨body, rfl, free⟩ := ih found
    exact ⟨c :: body, rfl, List.not_mem_cons_of_ne_of_not_mem (Ne.symm other) free⟩

theorem behindTag?_eq_none (found : behindTag? cs = none) : '>' ∉ cs := by
  fun_induction behindTag? cs with
  | case1 => exact List.not_mem_nil
  | case2 cs => cases found
  | case3 c cs other ih => exact List.not_mem_cons_of_ne_of_not_mem (Ne.symm other) (ih found)

end behindTag?

section bracketed

theorem isBracketed_of_isMarkup {isLetter : Char → Bool} (markup : IsMarkup isLetter stretch) :
    IsBracketed stretch := by
  obtain ⟨c, body, rfl, free, -⟩ := markup
  exact ⟨c :: body, rfl, free⟩

/-- The end of a bracketed stretch is its only greater-than sign. -/
theorem IsBracketed.eq_nil_of_split (bracketed : IsBracketed stretch) (front behind : List Char)
    (split : stretch = front ++ '>' :: behind) : behind = [] := by
  obtain ⟨body, rfl, free⟩ := bracketed
  rcases List.eq_nil_or_concat behind with rfl | ⟨inner, last, rfl⟩
  · rfl
  · have mem : '>' ∈ '<' :: body := by
      have same : '<' :: body = front ++ '>' :: inner := by
        rw [List.concat_eq_append, ← List.cons_append, ← List.append_assoc] at split
        exact (List.append_inj' split rfl).1
      rw [same]
      exact List.mem_append_right _ List.mem_cons_self
    rcases List.mem_cons.1 mem with same | inBody
    · cases same
    · exact absurd inBody free

/-- Two bracketed stretches that start at one place are the same. -/
theorem IsBracketed.unique {other : List Char} (bracketed : IsBracketed stretch) (isOther : IsBracketed other)
    (same : stretch ++ front = other ++ behind) : stretch = other := by
  rcases List.append_eq_append_iff.1 same with ⟨more, rfl, -⟩ | ⟨more, rfl, -⟩
  · obtain ⟨body, rfl, -⟩ := bracketed
    rw [isOther.eq_nil_of_split ('<' :: body) more (by simp), List.append_nil]
  · obtain ⟨body, rfl, -⟩ := isOther
    rw [bracketed.eq_nil_of_split ('<' :: body) more (by simp), List.append_nil]

end bracketed

section covered

theorem Covered.mono {wider : List Char → Prop} (imp : ∀ stretch, kind stretch → wider stretch)
    (covered : Covered kind cs place) : Covered wider cs place := by
  obtain ⟨front, stretch, behind, split, isKind, within⟩ := covered
  exact ⟨front, stretch, behind, split, imp stretch isKind, within⟩

theorem Covered.append_left (covered : Covered kind cs place) (front : List Char) :
    Covered kind (front ++ cs) (front.length + place) := by
  obtain ⟨before, stretch, behind, rfl, isKind, starts, stops⟩ := covered
  refine ⟨front ++ before, stretch, behind, by simp, isKind, ?_, ?_⟩
  · rw [List.length_append]
    omega
  · rw [List.length_append]
    omega

theorem not_covered_of_free (free : '>' ∉ cs) : ¬Covered IsBracketed cs place := by
  rintro ⟨front, stretch, behind, rfl, ⟨body, rfl, -⟩, -⟩
  simp at free

/-- In front of a character other than the less-than sign no stretch begins. -/
theorem covered_cons (cs : List Char) {c : Char} (other : c ≠ '<') :
    ¬Covered IsBracketed (c :: cs) 0 ∧
      ∀ place, Covered IsBracketed (c :: cs) (1 + place) ↔ Covered IsBracketed cs place := by
  have begins {front stretch behind : List Char} (split : c :: cs = front ++ stretch ++ behind)
      (bracketed : IsBracketed stretch) : ∃ more, front = c :: more ∧ cs = more ++ stretch ++ behind := by
    cases front with
    | nil =>
      obtain ⟨body, rfl, -⟩ := bracketed
      exact absurd (List.cons.inj split).1 other
    | cons first more =>
      obtain ⟨rfl, rest⟩ := List.cons.inj split
      exact ⟨more, rfl, rest⟩
  refine ⟨?_, fun place => ⟨?_, fun covered => covered.append_left [c]⟩⟩
  · rintro ⟨front, stretch, behind, split, bracketed, starts, -⟩
    obtain ⟨more, rfl, -⟩ := begins split bracketed
    cases starts
  · rintro ⟨front, stretch, behind, split, bracketed, starts, stops⟩
    obtain ⟨more, rfl, same⟩ := begins split bracketed
    rw [List.length_cons] at starts stops
    exact ⟨more, stretch, behind, same, bracketed, by omega, by omega⟩

/-- No stretch reaches across a greater-than sign. -/
theorem covered_behind (front rest : List Char) (place : Nat) :
    Covered IsBracketed (front ++ ['>'] ++ rest) (front.length + 1 + place) ↔ Covered IsBracketed rest place := by
  constructor
  · rintro ⟨before, stretch, behind, split, bracketed, starts, stops⟩
    rw [List.append_assoc before] at split
    rcases List.append_eq_append_iff.1 split with ⟨more, rfl, same⟩ | ⟨inner, isFront, same⟩
    · simp only [List.length_append, List.length_singleton] at starts stops
      exact ⟨more, stretch, behind, same.trans (List.append_assoc ..).symm, bracketed, by omega, by omega⟩
    · -- The stretch starts at the sign or before it, and then it ends there.
      have lengths := congrArg List.length isFront
      simp only [List.length_append, List.length_singleton] at lengths
      rcases List.append_eq_append_iff.1 same with ⟨more, rfl, -⟩ | ⟨more, rfl, isRest⟩
      · rw [List.length_append] at lengths
        omega
      · rcases List.eq_nil_or_concat inner with rfl | ⟨init, last, rfl⟩
        · rw [List.length_nil] at lengths
          exact ⟨[], more, behind, isRest, bracketed, Nat.zero_le _, by simpa [lengths] using stops⟩
        · rw [List.concat_eq_append, ← List.append_assoc] at isFront
          obtain rfl : '>' = last := List.singleton_inj.1 (List.append_inj' isFront rfl).2
          obtain rfl := bracketed.eq_nil_of_split init more (by simp)
          rw [List.append_nil] at stops
          omega
  · intro covered
    have shifted := covered.append_left (front ++ ['>'])
    rwa [List.length_append, List.length_singleton] at shifted

theorem covered_stretch (bracketed : IsBracketed stretch) (within : place < stretch.length) :
    Covered IsBracketed (stretch ++ rest) place :=
  ⟨[], stretch, rest, rfl, bracketed, Nat.zero_le _, by simpa using within⟩

end covered

section outside

open Classical in
/-- What stands outside is found part by part, if no stretch reaches from one part into the next. -/
theorem outside_append
    (apart : ∀ place, Covered kind (front ++ rest) (front.length + place) ↔ Covered kind rest place) :
    outside kind (front ++ rest) =
      (front.zipIdx.filter fun (_, place) => ¬Covered kind (front ++ rest) place).map Prod.fst ++
        outside kind rest := by
  rw [outside, outside, List.zipIdx_append, List.filter_append, List.map_append]
  congr 1
  rw [Nat.zero_add, List.zipIdx_eq_map_add, List.filter_map, List.map_map]
  congr 1
  apply List.filter_congr
  intro item _
  simp only [Function.comp_apply, apart]

theorem outside_cons {c : Char} (other : c ≠ '<') : outside IsBracketed (c :: cs) = c :: outside IsBracketed cs := by
  obtain ⟨first, others⟩ := covered_cons cs other
  have apart (place : Nat) :
      Covered IsBracketed ([c] ++ cs) ([c].length + place) ↔ Covered IsBracketed cs place := others place
  refine (outside_append apart).trans ?_
  simp [first]

theorem outside_stretch (bracketed : IsBracketed stretch) :
    outside IsBracketed (stretch ++ rest) = outside IsBracketed rest := by
  have apart (place : Nat) :
      Covered IsBracketed (stretch ++ rest) (stretch.length + place) ↔ Covered IsBracketed rest place := by
    obtain ⟨body, isStretch, -⟩ := bracketed
    rw [isStretch, List.length_append]
    exact covered_behind ('<' :: body) rest place
  classical
  rw [outside_append apart, List.filter_eq_nil_iff.2, List.map_nil, List.nil_append]
  intro item mem
  have within := List.snd_lt_of_mem_zipIdx mem
  simpa using covered_stretch bracketed (by simpa using within)

theorem outside_free (free : '>' ∉ cs) : outside IsBracketed cs = cs := by
  classical
  rw [outside, List.filter_eq_self.2, List.zipIdx_map_fst]
  intro item _
  simpa using not_covered_of_free free

/-- Exactly the bracketed stretches of a text are dropped. -/
theorem dropTags_eq_outside (cs : List Char) : dropTags cs = outside IsBracketed cs := by
  fun_induction dropTags cs with
  | case1 => exact (outside_free List.not_mem_nil).symm
  | case2 cs rest found ih =>
    obtain ⟨body, rfl, free⟩ := behindTag?_eq_some found
    rw [ih, ← outside_stretch ⟨body, rfl, free⟩]
    simp
  | case3 cs found =>
    refine (outside_free ?_).symm
    exact List.not_mem_cons_of_ne_of_not_mem (by decide) (behindTag?_eq_none found)
  | case4 c cs other ih => rw [ih, outside_cons other]

end outside

section taken

variable {isLetter : Char → Bool}

/-- The first less-than sign that waits for the same greater-than sign. -/
theorem exists_settled (front : List Char) (free : '>' ∉ body) : ∃ first inner,
    front ++ '<' :: body = first ++ '<' :: inner ∧ '>' ∉ inner ∧ IsSettled first ∧ first.length ≤ front.length := by
  induction length : front.length using Nat.strongRecOn generalizing front body with
  | ind bound ih =>
    by_cases settled : IsSettled front
    · exact ⟨front, body, rfl, free, settled, Nat.le_of_eq length⟩
    · simp only [IsSettled, not_forall] at settled
      obtain ⟨earlier, more, rfl, waits⟩ := settled
      have shorter : earlier.length < bound := by
        rw [← length, List.length_append]
        simp
      have noSign : '>' ∉ more ++ '<' :: body := by
        simpa using ⟨waits, free⟩
      obtain ⟨first, inner, same, isFree, isSettled, least⟩ := ih earlier.length shorter earlier noSign rfl
      exact ⟨first, inner, by rw [← same]; simp, isFree, isSettled, by omega⟩

/-- What is covered at all is covered by a stretch that is taken. -/
theorem exists_taken (covered : Covered IsBracketed cs place) : ∃ front stretch behind,
    cs = front ++ stretch ++ behind ∧ IsBracketed stretch ∧ IsSettled front ∧ front.length ≤ place ∧
      place < front.length + stretch.length := by
  obtain ⟨before, _, behind, rfl, ⟨body, rfl, free⟩, starts, stops⟩ := covered
  obtain ⟨first, inner, same, isFree, settled, least⟩ := exists_settled before free
  have lengths := congrArg List.length same
  simp only [List.length_append, List.length_cons, List.length_nil] at lengths stops
  refine ⟨first, '<' :: inner ++ ['>'], behind, ?_, ⟨inner, rfl, isFree⟩, settled, by omega, ?_⟩
  · have closed := congrArg (· ++ '>' :: behind) same
    simpa using closed
  · simp only [List.length_append, List.length_cons, List.length_nil]
    omega

/-- At the start of a stretch that is taken no other stretch is open. -/
theorem kind_of_covered_start (bracketed : IsBracketed stretch) (settled : IsSettled front)
    (imp : ∀ stretch, kind stretch → IsBracketed stretch)
    (covered : Covered kind (front ++ stretch ++ behind) front.length) : kind stretch := by
  obtain ⟨before, other, more, same, isKind, starts, stops⟩ := covered
  have isOther := imp other isKind
  rw [List.append_assoc, List.append_assoc] at same
  rcases List.append_eq_append_iff.1 same with ⟨inner, rfl, isInner⟩ | ⟨inner, rfl, isInner⟩
  · obtain rfl : inner = [] := by
      rw [List.length_append] at starts
      exact List.eq_nil_of_length_eq_zero (by omega)
    rwa [bracketed.unique isOther isInner]
  · cases inner with
    | nil => rwa [bracketed.unique isOther isInner.symm]
    | cons first inner =>
      -- A stretch that opens in front has ended there, and so it does not come this far.
      obtain ⟨rest, rfl⟩ : first :: inner <+: other := by
        refine List.prefix_of_prefix_length_le ⟨stretch ++ behind, rfl⟩ ⟨more, isInner⟩ ?_
        rw [List.length_append] at stops
        omega
      obtain rfl : first = '<' := by
        obtain ⟨body, isBody, -⟩ := isOther
        exact (List.cons.inj isBody).1
      obtain ⟨init, last, rfl⟩ := List.append_of_mem (settled before inner rfl)
      have ends := isOther.eq_nil_of_split ('<' :: init) (last ++ rest) (by simp)
      rw [(List.append_eq_nil_iff.1 ends).2, List.append_nil, List.length_append] at stops
      exact absurd stops (Nat.lt_irrefl _)

theorem lt_length_of_covered (covered : Covered kind cs place) : place < cs.length := by
  obtain ⟨front, stretch, behind, rfl, -, -, stops⟩ := covered
  rw [List.length_append, List.length_append]
  omega

/-- Nothing outside the narrower stretches is missing outside the wider ones only if they are the same places. -/
theorem sublist_outside_iff {wider : List Char → Prop} (imp : ∀ stretch, kind stretch → wider stretch) :
    (outside kind cs).Sublist (outside wider cs) ↔ ∀ place, Covered wider cs place → Covered kind cs place := by
  classical
  have fewer : (cs.zipIdx.filter fun (_, place) => ¬Covered wider cs place).Sublist
      (cs.zipIdx.filter fun (_, place) => ¬Covered kind cs place) := by
    apply List.monotone_filter_right
    intro item out
    simp only [decide_eq_true_eq] at out ⊢
    exact fun covered => out (covered.mono imp)
  constructor
  · intro kept place covered
    have same := fewer.eq_of_length_le (by simpa [outside] using kept.length_le)
    have bound := lt_length_of_covered covered
    apply Decidable.byContradiction
    intro out
    have mem : (cs[place], place) ∈ cs.zipIdx.filter fun (_, place) => ¬Covered kind cs place :=
      List.mem_filter.2 ⟨List.mem_zipIdx_iff_getElem?.2 (List.getElem?_eq_getElem bound), by simpa using out⟩
    rw [← same, List.mem_filter] at mem
    exact absurd covered (by simpa using mem.2)
  · intro covers
    refine List.Sublist.map _ (List.monotone_filter_right _ ?_)
    intro item out
    simp only [decide_eq_true_eq] at out ⊢
    exact fun covered => out (covers _ covered)

/-- The places of markup are all that goes exactly if all that is taken is markup. -/
theorem covers_iff : (∀ place, Covered IsBracketed cs place → Covered (IsMarkup isLetter) cs place) ↔
    ∀ stretch, Taken cs stretch → IsMarkup isLetter stretch := by
  constructor
  · rintro covers stretch ⟨front, behind, rfl, bracketed, settled⟩
    refine kind_of_covered_start bracketed settled (fun _ => isBracketed_of_isMarkup) (covers _ ?_)
    refine ⟨front, stretch, behind, rfl, bracketed, Nat.le_refl _, ?_⟩
    obtain ⟨body, rfl, -⟩ := bracketed
    simp
  · intro all place covered
    obtain ⟨front, stretch, behind, split, bracketed, settled, within⟩ := exists_taken covered
    exact ⟨front, stretch, behind, split, all stretch ⟨front, behind, split, bracketed, settled⟩, within⟩

end taken

theorem outside_eq_self_iff : outside kind cs = cs ↔ ∀ place, ¬Covered kind cs place := by
  classical
  constructor
  · intro same place covered
    have all : cs.zipIdx.filter (fun (_, place) => ¬Covered kind cs place) = cs.zipIdx := by
      refine List.filter_sublist.eq_of_length ?_
      simpa [outside] using congrArg List.length same
    have bound := lt_length_of_covered covered
    have mem : (cs[place], place) ∈ cs.zipIdx := List.mem_zipIdx_iff_getElem?.2 (List.getElem?_eq_getElem bound)
    rw [← all, List.mem_filter] at mem
    exact absurd covered (by simpa using mem.2)
  · intro free
    rw [outside, List.filter_eq_self.2, List.zipIdx_map_fst]
    intro item _
    simpa using free item.2

theorem exists_covered_iff : (∃ place, Covered IsBracketed cs place) ↔
    ∃ stretch, IsBracketed stretch ∧ stretch <:+: cs := by
  constructor
  · rintro ⟨place, front, stretch, behind, rfl, bracketed, -⟩
    exact ⟨stretch, bracketed, front, behind, rfl⟩
  · rintro ⟨stretch, bracketed, front, behind, rfl⟩
    refine ⟨front.length, front, stretch, behind, rfl, bracketed, Nat.le_refl _, ?_⟩
    obtain ⟨body, rfl, -⟩ := bracketed
    simp

/-- What becomes of a label whose markup is to go. -/
structure Strips (isLetter : Char → Bool) (label text : String) : Prop where
  removed : text.toList = outside IsBracketed label.toList
  keeps_iff : (outside (IsMarkup isLetter) label.toList).Sublist text.toList ↔
    ∀ stretch, Taken label.toList stretch → IsMarkup isLetter stretch
  unchanged_iff : text = label ↔ ∀ stretch, IsBracketed stretch → ¬stretch <:+: label.toList

/-- Whatever counts as a letter: the stretches from one angle bracket to the next closing one are removed from a label,
whether they are tags or not, so that more than the tags is lost just if one of them is none. -/
theorem strips_sanitize (isLetter : Char → Bool) (label : String) :
    Strips isLetter label (sanitize .strict label) := by
  have removed : (sanitize .strict label).toList = outside IsBracketed label.toList := by
    rw [sanitize, String.toList_ofList, dropTags_eq_outside]
  refine ⟨removed, ?keeps_iff, ?unchanged_iff⟩
  case keeps_iff =>
    rw [removed, sublist_outside_iff fun _ => isBracketed_of_isMarkup]
    exact covers_iff
  case unchanged_iff =>
    rw [← String.toList_inj, removed, outside_eq_self_iff, ← not_exists, exists_covered_iff]
    simp only [not_exists, not_and]

/-- A comparison with both signs holds no tag, and loses what stands between them. -/
theorem not_unchanged_comparison :
    (∀ stretch, IsMarkup Char.isAlpha stretch → ¬stretch <:+: "a < b and c > d".toList) ∧
      sanitize .strict "a < b and c > d" ≠ "a < b and c > d" := by
  constructor
  · rintro _ ⟨c, body, rfl, -, opens⟩ ⟨front, behind, split⟩
    have sign : "a < b and c > d".toList[front.length]? = some '<' := by
      rw [← split]
      simp
    have next : "a < b and c > d".toList[front.length + 1]? = some c := by
      rw [← split]
      simp
    have only : ∀ place < 15, "a < b and c > d".toList[place]? = some '<' → place = 2 := by decide
    rw [only front.length (List.getElem?_eq_some_iff.1 sign).1 sign] at next
    obtain rfl : ' ' = c := Option.some.inj next
    exact Bool.noConfusion opens
  · rw [Ne, ← String.toList_inj, sanitize, String.toList_ofList]
    simp [dropTags, behindTag?]

end Flowchart.Svg
