import Mathlib.Data.List.SplitBy
import Flowchart.Proofs.Yaml.Plain
import Flowchart.Proofs.Yaml.Quoted
import Flowchart.Yaml.Entry

/-!
Values that are written in runs, folded at spaces: plain or between single quotes. However the lines fall, a
reader gets the runs back, provided that spaces and line ends never meet in the value.
-/
namespace Flowchart.Yaml.Entry

/-- A run of visible characters without spaces. -/
structure IsWord (word : List Char) : Prop where
  ne_nil : word ≠ []
  visible : ∀ c ∈ word, ' ' < c ∧ c ≤ '~'

theorem not_isWord_replicate {c : Char} (n : Nat) (least : ¬ ' ' < c) : ¬ IsWord (List.replicate n c) := by
  intro isWord
  cases n with
  | zero => exact isWord.ne_nil rfl
  | succ n => exact least (isWord.visible c (by simp)).1

/-- Words, with spaces or line ends but not both between them. -/
inductive AreRuns : List (List Char) → Prop where
  | nil : AreRuns []
  | word {word : List Char} {rest : List (List Char)} (isWord : IsWord word) (areRuns : AreRuns rest)
      (next : ∀ run ∈ rest.head?, ¬ IsWord run) : AreRuns (word :: rest)
  | spaces (n : Nat) {rest : List (List Char)} (areRuns : AreRuns rest) (next : ∀ run ∈ rest.head?, IsWord run) :
      AreRuns (List.replicate (n + 1) ' ' :: rest)
  | feeds (n : Nat) {rest : List (List Char)} (areRuns : AreRuns rest) (next : ∀ run ∈ rest.head?, IsWord run) :
      AreRuns (List.replicate (n + 1) '\n' :: rest)

/-- Nowhere does the second character follow the first. -/
def Apart (first second : Char) (cs : List Char) : Prop :=
  ∀ before after, cs ≠ before ++ first :: second :: after

theorem Apart.of_append {first second : Char} {before after : List Char}
    (apart : Apart first second (before ++ after)) : Apart first second after := by
  rintro start rest rfl
  exact apart (before ++ start) rest (List.append_assoc ..).symm

theorem apart_of_areNeighbours {first second : Char} {cs : List Char} (none : areNeighbours first second cs = false) :
    Apart first second cs := by
  rintro before after rfl
  suffices areNeighbours first second (before ++ first :: second :: after) = true by simp [none] at this
  clear none
  induction before with
  | nil => simp [areNeighbours]
  | cons c before ih =>
    cases before with
    | nil => simp [areNeighbours]
    | cons d before =>
      rw [areNeighbours, List.contains_iff_mem] at ih ⊢
      exact List.mem_cons_of_mem _ ih

/-- What runs are told apart by. -/
def kind (c : Char) : Nat :=
  if c = ' ' then 1 else if c = '\n' then 2 else 0

theorem runs_eq (cs : List Char) : runs cs = cs.splitBy fun a b => kind a = kind b := rfl

theorem flatten_runs (cs : List Char) : (runs cs).flatten = cs := by
  rw [runs_eq, List.flatten_splitBy]

theorem kind_eq_one {c : Char} : kind c = 1 ↔ c = ' ' := by
  unfold kind
  split <;> [simp_all; (split <;> simp_all)]

theorem kind_eq_two {c : Char} : kind c = 2 ↔ c = '\n' := by
  unfold kind
  split <;> [simp_all; (split <;> simp_all)]

theorem kind_of_visible {c : Char} (least : ' ' < c) : kind c = 0 := by
  have space : c ≠ ' ' := by
    rintro rfl
    exact absurd least (by decide)
  have feed : c ≠ '\n' := by
    rintro rfl
    exact absurd least (by decide)
  simp [kind, space, feed]

theorem kind_eq_of_isChain {c : Char} {run : List Char}
    (uniform : (c :: run).IsChain fun a b => decide (kind a = kind b) = true) : ∀ d ∈ c :: run, kind d = kind c := by
  induction run generalizing c with
  | nil => simp
  | cons d run ih =>
    obtain ⟨same, uniform⟩ := List.isChain_cons_cons.1 uniform
    have same : kind c = kind d := by simpa using same
    exact List.forall_mem_cons.2 ⟨rfl, fun e mem => same ▸ ih uniform e mem⟩

theorem AreRuns.head {rs : List (List Char)} (areRuns : AreRuns rs) : ∀ run ∈ rs.head?,
    IsWord run ∨ (∃ n, run = List.replicate (n + 1) ' ') ∨ ∃ n, run = List.replicate (n + 1) '\n' := by
  cases areRuns with
  | nil => simp
  | word isWord => simp [isWord]
  | spaces n => exact fun run mem => .inr (.inl ⟨n, by simpa using mem.symm⟩)
  | feeds n => exact fun run mem => .inr (.inr ⟨n, by simpa using mem.symm⟩)

/-- A run of spaces or of line ends, which are not of one kind, is followed by a word if by anything. -/
theorem AreRuns.next_isWord {c other : Char} {n : Nat} {rest : List (List Char)} (areRuns : AreRuns rest)
    (two : c = ' ' ∧ other = '\n' ∨ c = '\n' ∧ other = ' ')
    (apart : Apart c other (List.replicate (n + 1) c ++ rest.flatten))
    (maximal : ∀ run ∈ rest.head?, ∃ d ∈ run.head?, kind c ≠ kind d) : ∀ run ∈ rest.head?, IsWord run := by
  intro run first
  obtain ⟨d, starts, differs⟩ := maximal run first
  obtain ⟨more, rfl⟩ := List.head?_eq_some_iff.1 first
  have other_ne (m : Nat) : run ≠ List.replicate (m + 1) other := by
    rintro rfl
    refine apart (List.replicate n c) (List.replicate m other ++ more.flatten) ?_
    simp [List.replicate_succ' (n := n), List.replicate_succ (n := m)]
  have self_ne (m : Nat) : run ≠ List.replicate (m + 1) c := by
    rintro rfl
    obtain rfl : c = d := by simpa [List.replicate_succ] using starts
    exact differs rfl
  obtain ⟨rfl, rfl⟩ | ⟨rfl, rfl⟩ := two
  · obtain isWord | ⟨m, eq⟩ | ⟨m, eq⟩ := areRuns.head run first
    exacts [isWord, absurd eq (self_ne m), absurd eq (other_ne m)]
  · obtain isWord | ⟨m, eq⟩ | ⟨m, eq⟩ := areRuns.head run first
    exacts [isWord, absurd eq (other_ne m), absurd eq (self_ne m)]

theorem areRuns_of_isChain {rs : List (List Char)} (visible : ∀ c ∈ rs.flatten, isVisible c = true ∨ c = '\n')
    (spaceFeed : Apart ' ' '\n' rs.flatten) (feedSpace : Apart '\n' ' ' rs.flatten) (someOf : [] ∉ rs)
    (uniform : ∀ run ∈ rs, run.IsChain fun a b => decide (kind a = kind b) = true)
    (maximal : rs.IsChain fun a b => ∃ ha hb, decide (kind (a.getLast ha) = kind (b.head hb)) = false) :
    AreRuns rs := by
  induction rs with
  | nil => exact .nil
  | cons run rest ih =>
    obtain ⟨ne, someOf⟩ := List.ne_and_not_mem_of_not_mem_cons someOf
    obtain ⟨same, uniform⟩ := List.forall_mem_cons.1 uniform
    obtain ⟨next, maximal⟩ := List.isChain_cons.1 maximal
    rw [List.flatten_cons] at visible spaceFeed feedSpace
    obtain ⟨here, visible⟩ := List.forall_mem_append.1 visible
    have areRuns := ih visible spaceFeed.of_append feedSpace.of_append someOf uniform maximal
    obtain ⟨c, run, rfl⟩ := List.exists_cons_of_ne_nil (Ne.symm ne)
    have same := kind_eq_of_isChain same
    have differs : ∀ run' ∈ rest.head?, ∃ d ∈ run'.head?, kind c ≠ kind d := by
      intro run' first
      obtain ⟨ha, hb, apart⟩ := next run' first
      refine ⟨run'.head hb, List.head?_eq_some_head hb, ?_⟩
      rw [← same _ (List.getLast_mem ha)]
      simpa using apart
    have eq {d : Char} (is : c = d) (only : ∀ e, kind e = kind d → e = d) :
        c :: run = List.replicate (run.length + 1) d :=
      List.eq_replicate_iff.2 ⟨rfl, fun e mem => only e (is ▸ same e mem)⟩
    by_cases space : c = ' '
    · have eq := eq space fun e is => kind_eq_one.1 is
      rw [eq] at spaceFeed ⊢
      exact .spaces _ areRuns (areRuns.next_isWord (.inl ⟨rfl, rfl⟩) spaceFeed (space ▸ differs))
    by_cases feed : c = '\n'
    · have eq := eq feed fun e is => kind_eq_two.1 is
      rw [eq] at feedSpace ⊢
      exact .feeds _ areRuns (areRuns.next_isWord (.inr ⟨rfl, rfl⟩) feedSpace (feed ▸ differs))
    have inWord : ∀ d ∈ c :: run, ' ' < d ∧ d ≤ '~' := by
      intro d mem
      have noSpace : d ≠ ' ' := fun is => space (kind_eq_one.1 ((same d mem).symm.trans (kind_eq_one.2 is)))
      have noFeed : d ≠ '\n' := fun is => feed (kind_eq_two.1 ((same d mem).symm.trans (kind_eq_two.2 is)))
      have isVisible := (here d mem).resolve_right noFeed
      simp only [Entry.isVisible, Bool.and_eq_true, decide_eq_true_eq] at isVisible
      exact ⟨Std.lt_of_le_of_ne isVisible.1 (Ne.symm noSpace), isVisible.2⟩
    refine .word ⟨by simp, inWord⟩ areRuns fun run' first isWord => ?_
    obtain ⟨d, starts, kinds⟩ := differs run' first
    rw [kind_of_visible (inWord c List.mem_cons_self).1,
      kind_of_visible (isWord.visible d (List.mem_of_mem_head? starts)).1] at kinds
    exact kinds rfl

theorem areRuns_runs {cs : List Char} (visible : ∀ c ∈ cs, isVisible c = true ∨ c = '\n')
    (spaceFeed : Apart ' ' '\n' cs) (feedSpace : Apart '\n' ' ' cs) : AreRuns (runs cs) := by
  rw [← flatten_runs cs] at visible spaceFeed feedSpace
  refine areRuns_of_isChain visible spaceFeed feedSpace ?_ ?_ ?_
  · exact List.nil_notMem_splitBy _ _
  · exact fun run => List.isChain_of_mem_splitBy
  · exact List.isChain_getLast_head_splitBy (fun a b => decide (kind a = kind b)) cs

section
variable {write : Char → List Char} {rest : List (List Char)}

theorem foldRuns_word {word : List Char} (column : Nat) (isFirst : Bool) (isWord : IsWord word) :
    foldRuns write column isFirst (word :: rest) =
      word.flatMap write ++ foldRuns write (column + (word.flatMap write).length) false rest := by
  obtain ⟨c, word, rfl⟩ := List.exists_cons_of_ne_nil isWord.ne_nil
  have visible := (isWord.visible c List.mem_cons_self).1
  have noSpace : c ≠ ' ' := by
    rintro rfl
    exact absurd visible (by decide)
  have noFeed : c ≠ '\n' := by
    rintro rfl
    exact absurd visible (by decide)
  rw [foldRuns]
  · simp [noFeed]
  · intro next more eq
    exact absurd (List.cons.inj eq).1 noSpace

/-- Spaces are written as they are, or a single one as a line end. -/
theorem foldRuns_spaces (write : Char → List Char) (rest : List (List Char)) (n column : Nat) (isFirst : Bool)
    (space : write ' ' = [' ']) : ∃ behind,
    foldRuns write column isFirst (List.replicate (n + 1) ' ' :: rest) =
        List.replicate (n + 1) ' ' ++ foldRuns write behind false rest ∨
      n = 0 ∧ rest ≠ [] ∧
        foldRuns write column isFirst (List.replicate (n + 1) ' ' :: rest) =
          '\n' :: ' ' :: ' ' :: foldRuns write behind false rest := by
  have written (n : Nat) : (List.replicate n ' ').flatMap write = List.replicate n ' ' := by
    induction n with
    | zero => rfl
    | succ n ih => simp [List.replicate_succ, ih, space]
  cases n with
  | zero =>
    cases rest with
    | nil => exact ⟨column + 1, .inl (by simp [foldRuns, space])⟩
    | cons next more =>
      by_cases folds : width < column && !isFirst
      · exact ⟨margin.length, .inr ⟨rfl, by simp, by simp [foldRuns, folds, margin]⟩⟩
      · exact ⟨column + 1, .inl (by simp [foldRuns, folds])⟩
  | succ n =>
    refine ⟨column + (n + 2), .inl ?_⟩
    rw [foldRuns, written]
    · simp [List.replicate_succ]
    · simp [List.replicate_succ]

theorem foldRuns_feeds (n column : Nat) (isFirst : Bool) :
    foldRuns write column isFirst (List.replicate (n + 1) '\n' :: rest) =
      '\n' :: List.replicate (n + 1) '\n' ++ ' ' :: ' ' :: foldRuns write margin.length false rest := by
  rw [foldRuns]
  · simp [List.replicate_succ, margin]
  · simp [List.replicate_succ]

/-- A word is written with a visible character first. -/
theorem isSolid_foldRuns (column : Nat) (isWord : ∃ run ∈ rest.head?, IsWord run)
    (solid : ∀ c, isGap c = false → IsSolid (write c)) : IsSolid (foldRuns write column false rest) := by
  obtain ⟨run, first, isWord⟩ := isWord
  obtain ⟨more, rfl⟩ := List.head?_eq_some_iff.1 first
  rw [foldRuns_word column false isWord]
  obtain ⟨c, word, rfl⟩ := List.exists_cons_of_ne_nil isWord.ne_nil
  obtain ⟨least, most⟩ := isWord.visible c List.mem_cons_self
  simpa using (solid c (isGap_of_visible least most)).append _

end

theorem IsWord.noGap {word : List Char} (isWord : IsWord word) : ∀ c ∈ word, isGap c = false :=
  fun c mem => isGap_of_visible (isWord.visible c mem).1 (isWord.visible c mem).2

theorem isSolid_doubled {c : Char} (noGap : isGap c = false) : IsSolid (doubled c) := by
  by_cases single : c = '\''
  · simp [doubled, single, isSolid_cons, show isGap '\'' = false from rfl]
  · simp [doubled, single, isSolid_cons, noGap]

theorem reads_doubled {word rest text tail : List Char} (noGap : ∀ c ∈ word, isGap c = false)
    (reads : Scalar.Reads '\'' rest text tail) :
    Scalar.Reads '\'' (word.flatMap doubled ++ rest) (word ++ text) tail := by
  induction word with
  | nil => exact reads
  | cons c word ih =>
    obtain ⟨here, behind⟩ := List.forall_mem_cons.1 noGap
    by_cases single : c = '\''
    · simpa [doubled, single] using (ih behind).doubled
    · simpa [doubled, single] using (ih behind).char single (by simp) here

theorem reads_spaces {quote : Char} {n : Nat} {rest text tail : List Char} (reads : Scalar.Reads quote rest text tail)
    (noGap : isGap quote = false) (stays : Scalar.StaysInLine rest) :
    Scalar.Reads quote (List.replicate n ' ' ++ rest) (List.replicate n ' ' ++ text) tail ∧
      Scalar.StaysInLine (List.replicate n ' ' ++ rest) := by
  induction n with
  | zero => exact ⟨reads, stays⟩
  | succ n ih => exact ⟨ih.1.space noGap ih.2, ih.2.cons rfl⟩

/-- A value between single quotes is read back. -/
theorem reads_foldRuns {rs : List (List Char)} (tail : List Char) (areRuns : AreRuns rs) (column : Nat) (isFirst : Bool)
    (single : tail.headD '\x00' ≠ '\'') :
    Scalar.Reads '\'' (foldRuns doubled column isFirst rs ++ '\'' :: tail) rs.flatten tail := by
  have solid (rest : List (List Char)) (next : ∀ run ∈ rest.head?, IsWord run) (column : Nat) :
      IsSolid (foldRuns doubled column false rest ++ '\'' :: tail) := by
    cases rest with
    | nil => exact isSolid_cons.2 rfl
    | cons run more => exact (isSolid_foldRuns column ⟨run, rfl, next run rfl⟩ fun _ => isSolid_doubled).append _
  induction areRuns generalizing column isFirst with
  | nil => simpa [foldRuns] using Scalar.reads_end single
  | word isWord _ _ ih =>
    rw [foldRuns_word column isFirst isWord, List.append_assoc, List.flatten_cons]
    exact reads_doubled isWord.noGap (ih _ _)
  | @spaces n rest _ next ih =>
    obtain ⟨behind, eq | ⟨rfl, -, eq⟩⟩ := foldRuns_spaces doubled rest n column isFirst rfl
    · rw [eq, List.append_assoc, List.flatten_cons]
      exact (reads_spaces (ih _ _) rfl (Scalar.staysInLine_of_isSolid (solid rest next _))).1
    · rw [eq]
      exact (ih behind false).feed (n := 0) rfl (solid rest next _)
  | @feeds n rest _ next ih =>
    rw [foldRuns_feeds]
    simpa using (ih margin.length false).feed (n := n + 1) rfl (solid rest next _)

/-- No character inside the value ends it. -/
theorem hasEndMark_append {before : Char} {start rest : List Char} (none : hasEndMark before (start ++ rest) = false) :
    hasEndMark (start.getLastD before) rest = false := by
  induction start generalizing before with
  | nil => exact none
  | cons c start ih =>
    simp only [List.cons_append, hasEndMark, Bool.or_eq_false_iff] at none
    rw [List.getLastD_cons]
    exact ih none.2

theorem noColon_of_hasEndMark {before : Char} {word rest : List Char} (none : hasEndMark before (word ++ rest) = false)
    (gap : isGap (rest.headD '\x00') = true) : word.getLast? ≠ some ':' := by
  intro last
  obtain ⟨start, rfl⟩ := List.getLast?_eq_some_iff.1 last
  rw [List.append_assoc] at none
  have here := hasEndMark_append none
  simp only [List.singleton_append, hasEndMark, endsPlain, gap] at here
  simp at here

/-- A word in a plain value does not begin with a hash behind a space, nor end with a colon before one. -/
theorem IsWord.isPlainWord {word rest : List Char} (isWord : IsWord word)
    (none : hasEndMark ' ' (word ++ rest) = false) (gap : isGap (rest.headD '\x00') = true) :
    Scalar.IsPlainWord word where
  ne_nil := isWord.ne_nil
  noGap := isWord.noGap
  noMark c mem := by
    rintro rfl
    exact absurd (isWord.visible _ mem).2 (by decide)
  noHash := by
    obtain ⟨c, word, rfl⟩ := List.exists_cons_of_ne_nil isWord.ne_nil
    rintro ⟨⟩
    simp [hasEndMark, endsPlain, isGap, isSpaceOrEnd] at none
  noColon := noColon_of_hasEndMark none gap

theorem AreRuns.gap_head {rs : List (List Char)} (areRuns : AreRuns rs) (next : ∀ run ∈ rs.head?, ¬ IsWord run) :
    isGap (rs.flatten.headD '\x00') = true := by
  cases rs with
  | nil => rfl
  | cons run rest =>
    obtain isWord | ⟨n, rfl⟩ | ⟨n, rfl⟩ := areRuns.head run rfl
    · exact absurd isWord (next run rfl)
    · simp [List.replicate_succ, isGap, isSpaceOrEnd]
    · simp [List.replicate_succ, isGap, isSpaceOrEnd, isLineEnd, isBreak]

theorem AreRuns.gap_tail {rs : List (List Char)} (areRuns : AreRuns rs) (isWord : ∃ run ∈ rs.head?, IsWord run) :
    isGap (rs.tail.flatten.headD '\x00') = true := by
  cases areRuns with
  | nil => simp at isWord
  | word _ areRuns next => exact areRuns.gap_head next
  | spaces n => exact absurd (by simpa using isWord) (not_isWord_replicate (n + 1) (c := ' ') (by decide))
  | feeds n => exact absurd (by simpa using isWord) (not_isWord_replicate (n + 1) (c := '\n') (by decide))

/-- The word behind a space in a plain value does not begin with a hash. -/
theorem noHash_foldRuns {rest : List (List Char)} (ending : List Char) (column : Nat)
    (isWord : ∃ run ∈ rest.head?, IsWord run) (none : hasEndMark ' ' rest.flatten = false) :
    (foldRuns (fun c => [c]) column false rest ++ ending).headD '\x00' ≠ '#' := by
  obtain ⟨run, first, isWord⟩ := isWord
  obtain ⟨more, rfl⟩ := List.head?_eq_some_iff.1 first
  rw [foldRuns_word column false isWord, List.flatMap_singleton']
  obtain ⟨c, word, rfl⟩ := List.exists_cons_of_ne_nil isWord.ne_nil
  intro hash
  obtain rfl : c = '#' := by simpa using hash
  simp [hasEndMark, endsPlain, isGap, isSpaceOrEnd] at none

/-- A plain value is read back: from a word on, and from behind a word. -/
theorem readsPlain_foldRuns {rs : List (List Char)} (areRuns : AreRuns rs) (noFeed : '\n' ∉ rs.flatten)
    (trimmed : ∀ start, rs.flatten ≠ start ++ [' ']) :
    (∀ column isFirst, (∃ run ∈ rs.head?, IsWord run) → hasEndMark ' ' rs.flatten = false →
      Scalar.ReadsPlain (foldRuns (fun c => [c]) column isFirst rs ++ ['\n']) rs.flatten) ∧
    (∀ column isFirst before word, (∀ run ∈ rs.head?, ¬ IsWord run) → hasEndMark before rs.flatten = false →
      Scalar.IsPlainWord word →
      Scalar.ReadsPlain (word ++ (foldRuns (fun c => [c]) column isFirst rs ++ ['\n'])) (word ++ rs.flatten)) := by
  induction areRuns with
  | nil =>
    refine ⟨by simp, fun column isFirst before word _ _ isWord => ?_⟩
    simpa [foldRuns] using Scalar.readsPlain_word isWord
  | @word word rest isWord areRuns next ih =>
    rw [List.flatten_cons] at noFeed trimmed ⊢
    obtain ⟨-, ih⟩ := ih (fun mem => noFeed (List.mem_append_right _ mem)) fun start eq =>
      trimmed (word ++ start) (by rw [eq, List.append_assoc])
    refine ⟨fun column isFirst _ none => ?_, fun _ _ _ _ no => absurd isWord (no word rfl)⟩
    rw [foldRuns_word column isFirst isWord, List.flatMap_singleton', List.append_assoc]
    exact ih _ _ _ word next (hasEndMark_append none) (isWord.isPlainWord none (areRuns.gap_head next))
  | @spaces n rest areRuns next ih =>
    rw [List.flatten_cons] at noFeed trimmed ⊢
    obtain ⟨ih, -⟩ := ih (fun mem => noFeed (List.mem_append_right _ mem)) fun start eq =>
      trimmed (List.replicate (n + 1) ' ' ++ start) (by rw [eq, List.append_assoc])
    refine ⟨fun _ _ isWord _ => ?_, fun column isFirst before word _ none isPlain => ?_⟩
    · simp at isWord
      exact absurd isWord (not_isWord_replicate _ (by decide))
    have more : ∃ run ∈ rest.head?, IsWord run := by
      cases rest with
      | nil => exact absurd (by simp [List.replicate_succ']) (trimmed (List.replicate n ' '))
      | cons run rest => exact ⟨run, rfl, next run rfl⟩
    have noneBehind : hasEndMark ' ' rest.flatten = false := by
      simpa [List.replicate_succ'] using hasEndMark_append none
    obtain ⟨behind, eq | ⟨rfl, -, eq⟩⟩ := foldRuns_spaces (fun c => [c]) rest n column isFirst rfl
    all_goals
      have reads := ih behind false more noneBehind
      have solid : IsSolid (foldRuns (fun c => [c]) behind false rest ++ ['\n']) :=
        (isSolid_foldRuns behind more fun c => isSolid_cons.2).append _
      have noHash := noHash_foldRuns ['\n'] behind more noneBehind
      rw [eq]
    · simpa using reads.spaces (n := n) isPlain solid noHash
    · simpa using reads.feed isPlain solid noHash
  | feeds n => simp [List.replicate_succ] at noFeed

end Flowchart.Yaml.Entry
