import Flowchart.Text.Blank
import Mathlib.Data.List.TakeWhile

/-!
Trimming. Of a text it leaves out blanks on both sides and nothing else, and what is left neither starts nor stops with
a blank, so that more blanks around a text do not matter and a second trimming changes nothing.
-/
namespace Flowchart.Text

/-- The characters neither start nor stop with a blank. -/
structure IsTrimmed (cs : List Char) : Prop where
  first : ∀ c ∈ cs.head?, isBlank c = false
  last : ∀ c ∈ cs.getLast?, isBlank c = false

variable {cs left right : List Char}

/-- Trimming leaves out blanks on both sides. -/
theorem trimChars_split (cs : List Char) :
    ∃ left right, cs = left ++ trimChars cs ++ right ∧ (∀ c ∈ left, isBlank c = true) ∧
      ∀ c ∈ right, isBlank c = true := by
  have front := List.takeWhile_append_dropWhile (p := isBlank) (l := cs)
  have back := congrArg List.reverse
    (List.takeWhile_append_dropWhile (p := isBlank) (l := (cs.dropWhile isBlank).reverse))
  rw [List.reverse_append, List.reverse_reverse] at back
  refine ⟨cs.takeWhile isBlank, ((cs.dropWhile isBlank).reverse.takeWhile isBlank).reverse, ?_, ?_, ?_⟩
  · rw [trimChars, dropTail, List.append_assoc, back, front]
  · exact fun c mem => List.mem_takeWhile_imp mem
  · exact fun c mem => List.mem_takeWhile_imp (List.mem_reverse.1 mem)

theorem isInfix_trimChars (cs : List Char) : trimChars cs <:+: cs := by
  obtain ⟨left, right, split, -, -⟩ := trimChars_split cs
  exact ⟨left, right, split.symm⟩

theorem trimChars_subset (cs : List Char) : trimChars cs ⊆ cs :=
  (isInfix_trimChars cs).subset

theorem isBlank_of_head?_dropWhile {c : Char} (isFirst : c ∈ (cs.dropWhile isBlank).head?) : isBlank c = false := by
  have first := List.head?_dropWhile_not isBlank cs
  rwa [isFirst] at first

theorem isTrimmed_trimChars (cs : List Char) : IsTrimmed (trimChars cs) := by
  constructor
  · intro c isFirst
    have isPrefix : trimChars cs <+: cs.dropWhile isBlank := by
      rw [← List.reverse_suffix, trimChars, dropTail, List.reverse_reverse]
      exact List.dropWhile_suffix _
    obtain ⟨rest, split⟩ := isPrefix
    have isHead : c ∈ (cs.dropWhile isBlank).head? := by
      rw [← split, List.head?_append, isFirst]
      rfl
    exact isBlank_of_head?_dropWhile isHead
  · intro c isLast
    rw [trimChars, dropTail, List.getLast?_reverse] at isLast
    exact isBlank_of_head?_dropWhile isLast

theorem dropWhile_of_head? (first : ∀ c ∈ cs.head?, isBlank c = false) : cs.dropWhile isBlank = cs := by
  cases cs with
  | nil => rfl
  | cons c cs => exact List.dropWhile_cons_of_neg (by simp [first c rfl])

theorem trimChars_of_isTrimmed (trimmed : IsTrimmed cs) : trimChars cs = cs := by
  have last : cs.reverse.dropWhile isBlank = cs.reverse := by
    apply dropWhile_of_head?
    rw [List.head?_reverse]
    exact trimmed.last
  rw [trimChars, dropWhile_of_head? trimmed.first, dropTail, last, List.reverse_reverse]

/-- Blanks around a text do not matter. -/
theorem trimChars_between (isLeft : ∀ c ∈ left, isBlank c = true) (isRight : ∀ c ∈ right, isBlank c = true) :
    trimChars (left ++ cs ++ right) = trimChars cs := by
  have tail (cs : List Char) : dropTail isBlank (cs ++ right) = dropTail isBlank cs := by
    rw [dropTail, List.reverse_append, List.dropWhile_append_of_pos, ← dropTail]
    exact fun c mem => isRight c (List.mem_reverse.1 mem)
  rw [List.append_assoc, trimChars, List.dropWhile_append_of_pos isLeft, List.dropWhile_append, trimChars]
  cases cs.dropWhile isBlank with
  | nil =>
    rw [List.dropWhile_eq_nil_iff.2 isRight]
    rfl
  | cons c rest => exact tail (c :: rest)

end Flowchart.Text
