import Flowchart.Proofs.Svg.Tags

/-!
One pass over a strict label is enough. A less-than sign is kept only if no greater-than sign follows it, so what is
left of several tags never makes up another one, and a second pass finds nothing to take away.
-/
namespace Flowchart.Svg

/-- No less-than sign of the text has a greater-than sign behind it. -/
def IsTagFree (cs : List Char) : Prop :=
  ∀ front behind, cs = front ++ '<' :: behind → '>' ∉ behind

/-- What a strict label is turned into, once and for all. -/
structure StripsOnce (label text : String) : Prop where
  free : IsTagFree text.toList
  noTag : ∀ stretch, IsBracketed stretch → ¬stretch <:+: text.toList
  stable : sanitize .strict text = text
  unchanged_iff : text = label ↔ IsTagFree label.toList

variable {c : Char} {cs : List Char}

theorem isTagFree_of_not_mem (free : '>' ∉ cs) : IsTagFree cs := by
  rintro front behind rfl mem
  exact free (List.mem_append_right _ (List.mem_cons_of_mem _ mem))

theorem isTagFree_cons : IsTagFree (c :: cs) ↔ (c = '<' → '>' ∉ cs) ∧ IsTagFree cs := by
  constructor
  · intro free
    constructor
    · rintro rfl
      exact free [] cs rfl
    · rintro front behind rfl
      exact free (c :: front) behind rfl
  · rintro ⟨first, rest⟩ front behind split
    cases front with
    | nil =>
      obtain ⟨isSign, rfl⟩ := List.cons.inj split
      exact first isSign
    | cons _ front =>
      obtain ⟨-, rfl⟩ := List.cons.inj split
      exact rest front behind rfl

/-- A stretch that would be taken away starts at such a less-than sign. -/
theorem IsTagFree.not_infix (free : IsTagFree cs) {stretch : List Char} (bracketed : IsBracketed stretch) :
    ¬stretch <:+: cs := by
  obtain ⟨body, rfl, -⟩ := bracketed
  rintro ⟨front, behind, rfl⟩
  refine free front (body ++ '>' :: behind) ?_ ?_
  · simp
  · simp

/-- A less-than sign is kept only where no greater-than sign follows. -/
theorem isTagFree_dropTags (cs : List Char) : IsTagFree (dropTags cs) := by
  fun_induction dropTags cs with
  | case1 => exact isTagFree_of_not_mem List.not_mem_nil
  | case2 cs rest found ih => exact ih
  | case3 cs found =>
    have noSign := behindTag?_eq_none found
    exact isTagFree_cons.2 ⟨fun _ => noSign, isTagFree_of_not_mem noSign⟩
  | case4 c cs other ih => exact isTagFree_cons.2 ⟨fun isSign => absurd isSign other, ih⟩

theorem dropTags_of_isTagFree (free : IsTagFree cs) : dropTags cs = cs := by
  fun_induction dropTags cs with
  | case1 => rfl
  | case2 cs rest found ih =>
    obtain ⟨body, rfl, -⟩ := behindTag?_eq_some found
    exact absurd (List.mem_append_right _ List.mem_cons_self) ((isTagFree_cons.1 free).1 rfl)
  | case3 => rfl
  | case4 c cs other ih => rw [ih (isTagFree_cons.1 free).2]

theorem sanitize_of_isTagFree {label : String} (free : IsTagFree label.toList) : sanitize .strict label = label := by
  rw [sanitize, dropTags_of_isTagFree free, String.ofList_toList]

/-- One pass over any label leaves nothing to be removed, so that a second one changes nothing; and a label without
a tag stays as it is. -/
theorem stripsOnce_sanitize (label : String) : StripsOnce label (sanitize .strict label) := by
  have free : IsTagFree (sanitize .strict label).toList := by
    rw [sanitize, String.toList_ofList]
    exact isTagFree_dropTags _
  constructor
  case free => exact free
  case noTag => exact fun _ => free.not_infix
  case stable => exact sanitize_of_isTagFree free
  case unchanged_iff =>
    constructor
    · intro same
      rwa [same] at free
    · exact sanitize_of_isTagFree

/-- What is left of a tag inside a tag are signs that open nothing. -/
example : sanitize .strict "<b<i>>x</</b>i> <" = ">xi> <" := by cbv

end Flowchart.Svg
