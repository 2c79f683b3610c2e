import Flowchart.Proofs.Yaml.Escapes
import Flowchart.Proofs.Yaml.Folding
import Flowchart.Yaml.Value

/-!
Writing an entry of text and reading it back. Whatever the text of the value is, the YAML text of a mapping
with that single entry stands for exactly this mapping.
-/
namespace Flowchart.Yaml

namespace Entry

/-- A character that entries are written with. -/
def IsWritten (c : Char) : Prop :=
  isVisible c = true ∨ c = '\n'

theorem isWritten_margin : ∀ c ∈ margin, IsWritten c := by
  simp [margin, IsWritten, isVisible]

theorem isWritten_foldRuns {write : Char → List Char} {rs : List (List Char)} (column : Nat) (isFirst : Bool)
    (written : ∀ run ∈ rs, ∀ c ∈ run, IsWritten c ∧ ∀ d ∈ write c, IsWritten d) :
    ∀ c ∈ foldRuns write column isFirst rs, IsWritten c := by
  fun_induction foldRuns write column isFirst rs with
  | case1 => simp
  | case2 column isFirst next more folds ih =>
    simp only [List.cons_append, List.forall_mem_cons, List.forall_mem_append]
    exact ⟨.inr rfl, isWritten_margin, ih fun run mem => written run (List.mem_cons_of_mem _ mem)⟩
  | case3 column isFirst next more stays ih =>
    exact List.forall_mem_cons.2 ⟨.inl (by decide), ih fun run mem => written run (List.mem_cons_of_mem _ mem)⟩
  | case4 column isFirst run more _ feed ih =>
    obtain ⟨here, behind⟩ := List.forall_mem_cons.1 written
    simp only [List.append_assoc, List.cons_append, List.forall_mem_cons, List.forall_mem_append]
    exact ⟨.inr rfl, fun c mem => (here c mem).1, isWritten_margin, ih behind⟩
  | case5 column isFirst run more _ _ written' ih =>
    obtain ⟨here, behind⟩ := List.forall_mem_cons.1 written
    refine List.forall_mem_append.2 ⟨fun d mem => ?_, ih behind⟩
    obtain ⟨c, memRun, memWrite⟩ := List.mem_flatMap.1 mem
    exact (here c memRun).2 d memWrite

/-- The end of a line that the next one continues, and the head of that one. -/
theorem isWritten_continued {before behind : List Char} (guarded : Prop) [Decidable guarded]
    (written : ∀ c ∈ before, IsWritten c) (writtenBehind : ∀ c ∈ behind, IsWritten c) :
    ∀ c ∈ before ++ '\\' :: '\n' :: margin ++ (if guarded then ['\\'] else []) ++ behind, IsWritten c := by
  have backslash : IsWritten '\\' := .inl rfl
  simp only [List.append_assoc, List.cons_append, List.forall_mem_append, List.forall_mem_cons]
  refine ⟨written, backslash, .inr rfl, isWritten_margin, ?_, writtenBehind⟩
  split <;> simp [backslash]

theorem isWritten_literal {c : Char} (none : escape? c = none) : IsWritten c := by
  obtain ⟨-, visible, -⟩ | ⟨letter, some, -⟩ | ⟨letter, width, some, -⟩ := escape?_cases c
  · exact .inl visible
  · simp [none] at some
  · simp [none] at some

theorem isWritten_doubleFrom {held cs : List Char} (column : Nat) (isFirst : Bool) (written : ∀ c ∈ held, IsWritten c) :
    ∀ c ∈ doubleFrom column isFirst held cs, IsWritten c := by
  fun_induction doubleFrom column isFirst held cs with
  | case1 => exact written
  | case2 column isFirst held c rest escaped escapes all behind folds guard ih =>
    refine isWritten_continued _ (List.forall_mem_append.2 ⟨written, fun d mem => ?_⟩) (ih (by simp))
    exact .inl (visible_of_escape escapes d mem)
  | case3 column isFirst held c rest escaped escapes all behind stays ih =>
    refine List.forall_mem_append.2 ⟨List.forall_mem_append.2 ⟨written, fun d mem => ?_⟩, ih (by simp)⟩
    exact .inl (visible_of_escape escapes d mem)
  | case4 column isFirst held c rest escapes folds guard ih =>
    exact isWritten_continued _ written (ih (by simpa using isWritten_literal escapes))
  | case5 column isFirst held c rest escapes stays ih =>
    exact ih (List.forall_mem_append.2 ⟨written, by simpa using isWritten_literal escapes⟩)

/-- A text between quotes at the end of a line, behind the first quote. -/
structure StandsQuoted (text : String) (quote : Char) (written : List Char) : Prop where
  isQuote : quote = '\'' ∨ quote = '"'
  reads : Scalar.Reads quote (written ++ ['\n']) text.toList ['\n']
  isWritten : ∀ c ∈ written, IsWritten c

/-- A text at the end of a line that is read as plain and counts as text. -/
structure StandsPlain (text : String) (c : Char) (written : List Char) : Prop where
  noGap : isGap c = false
  noMark : isStartMark c = false
  noGapMark : isGapMark c = true → isGap ((written ++ ['\n']).headD '\x00') = false
  isText : Form.ofPlain text = .text
  reads : Scalar.ReadsPlain (c :: written ++ ['\n']) text.toList
  isWritten : ∀ d ∈ c :: written, IsWritten d

/-- A style other than double quotes is for visible characters and line ends, with spaces apart from line ends. -/
theorem areRuns_of_styleOf (cs : List Char) (style : styleOf cs ≠ .double) :
    AreRuns (runs cs) ∧ ∀ c ∈ cs, IsWritten c := by
  unfold styleOf at style
  split at style
  · exact absurd rfl style
  rename_i visible
  split at style
  · exact absurd rfl style
  rename_i apart
  have visible : ∀ c ∈ cs, IsWritten c := by
    intro c mem
    cases isVisible : isVisible c with
    | true => exact .inl isVisible
    | false =>
      have only : ∀ d ∈ cs, Entry.isVisible d = false → d = '\n' := by simpa using visible
      exact .inr (only c mem isVisible)
  simp only [Bool.or_eq_true, not_or, Bool.not_eq_true] at apart
  exact ⟨areRuns_runs visible (apart_of_areNeighbours apart.1) (apart_of_areNeighbours apart.2), visible⟩

theorem isPlain_of_styleOf {cs : List Char} (style : styleOf cs = .plain) :
    Form.ofPlain (String.ofList cs) = .text ∧ '\n' ∉ cs ∧ hasMarks cs = false ∧
      some ' ' ∉ [cs.head?, cs.getLast?] := by
  unfold styleOf at style
  split at style
  · cases style
  split at style
  · cases style
  dsimp only at style
  split at style
  · rename_i isPlain
    simpa [and_assoc] using isPlain
  · cases style

/-- A plain value begins with a word, for it begins with neither a space nor a line end. -/
theorem exists_word {text : String} (style : styleOf text.toList = .plain) :
    ∃ word more, runs text.toList = word :: more ∧ IsWord word := by
  obtain ⟨areRuns, -⟩ := areRuns_of_styleOf text.toList (by simp [style])
  obtain ⟨isText, noFeed, -, noSpaces⟩ := isPlain_of_styleOf style
  rw [String.ofList_toList] at isText
  have flat := flatten_runs text.toList
  cases eq : runs text.toList with
  | nil =>
    rw [eq] at flat
    obtain rfl : text = "" := String.toList_eq_nil_iff.1 flat.symm
    exact absurd isText (by decide)
  | cons word more =>
    rw [eq] at areRuns flat
    rw [← flat] at noFeed noSpaces
    obtain isWord | ⟨n, rfl⟩ | ⟨n, rfl⟩ := areRuns.head word rfl
    · exact ⟨word, more, rfl, isWord⟩
    · simp [List.replicate_succ] at noSpaces
    · simp [List.replicate_succ] at noFeed

theorem standsPlain {text : String} (column : Nat) (style : styleOf text.toList = .plain) :
    ∃ c written, foldRuns (fun c => [c]) column true (runs text.toList) = c :: written ∧
      StandsPlain text c written := by
  obtain ⟨areRuns, isWritten⟩ := areRuns_of_styleOf text.toList (by simp [style])
  obtain ⟨isText, noFeed, noMarks, noSpaces⟩ := isPlain_of_styleOf style
  rw [String.ofList_toList] at isText
  have flat := flatten_runs text.toList
  obtain ⟨word, more, eq, isWord⟩ := exists_word style
  have trimmed : ∀ start, (runs text.toList).flatten ≠ start ++ [' '] := by
    intro start eq
    rw [flat] at eq
    simp [eq] at noSpaces
  obtain ⟨c, word, rfl⟩ := List.exists_cons_of_ne_nil isWord.ne_nil
  rw [← flat, eq] at noMarks
  simp only [List.flatten_cons, List.cons_append, hasMarks, Bool.or_eq_false_iff] at noMarks
  obtain ⟨⟨⟨-, noMark⟩, noGapMark⟩, noEndMark⟩ := noMarks
  have noHash : c ≠ '#' := by
    rintro rfl
    simp [isStartMark] at noMark
  have noEnd : hasEndMark ' ' (runs text.toList).flatten = false := by
    rw [eq, List.flatten_cons, List.cons_append, hasEndMark, noEndMark, Bool.or_false]
    by_cases colon : c = ':'
    · simpa [endsPlain, colon, isGapMark] using noGapMark
    · simp [endsPlain, colon, noHash]
  have reads :=
    (readsPlain_foldRuns areRuns (flat.symm ▸ noFeed) trimmed).1 column true ⟨_, by rw [eq]; rfl, isWord⟩ noEnd
  have written : foldRuns (fun c => [c]) column true (runs text.toList) =
      c :: (word ++ foldRuns (fun c => [c]) (column + (c :: word).length) false more) := by
    rw [eq, foldRuns_word column true isWord, List.flatMap_singleton', List.cons_append]
  refine ⟨c, _, written, isWord.noGap c List.mem_cons_self, noMark, ?_, isText, ?_, ?_⟩
  · intro mark
    rw [mark, Bool.true_and] at noGapMark
    cases word with
    | cons d word => simpa using noGapMark
    | nil =>
      have gap := areRuns.gap_tail (by simpa [eq] using isWord)
      simp only [eq, List.tail_cons] at gap
      simp only [List.nil_append, gap] at noGapMark
      cases noGapMark
  · simpa [written, flat] using reads
  · rw [← written]
    refine isWritten_foldRuns _ _ fun run memRun c mem => ?_
    have here := isWritten c (flat ▸ List.mem_flatten_of_mem memRun mem)
    exact ⟨here, by simpa using here⟩

theorem value_cases (column : Nat) (text : String) :
    (∃ quote written, value column text = ' ' :: quote :: written ∧ StandsQuoted text quote written) ∨
      ∃ c written, value column text = ' ' :: c :: written ∧ StandsPlain text c written := by
  have flat := flatten_runs text.toList
  cases style : styleOf text.toList with
  | plain =>
    obtain ⟨c, written, eq, stands⟩ := standsPlain (column + 1) style
    exact .inr ⟨c, written, by simp [value, style, eq], stands⟩
  | single =>
    obtain ⟨areRuns, isWritten⟩ := areRuns_of_styleOf text.toList (by simp [style])
    refine .inl ⟨'\'', foldRuns doubled (column + 2) true (runs text.toList) ++ ['\''], by simp [value, style],
      .inl rfl, ?_, ?_⟩
    · simpa [flat] using reads_foldRuns ['\n'] areRuns (column + 2) true (by decide)
    · refine List.forall_mem_append.2
        ⟨isWritten_foldRuns _ _ fun run memRun c mem => ?_, by simp [IsWritten, isVisible]⟩
      have here := isWritten c (flat ▸ List.mem_flatten_of_mem memRun mem)
      refine ⟨here, ?_⟩
      by_cases single : c = '\'' <;> simp_all [doubled]
  | double =>
    have writes : Writes ['\n'] text.toList := writes_all (by decide) text.toList
    obtain ⟨written, eq, behind⟩ := writes (column + 2) true []
    refine .inl ⟨'"', doubleFrom (column + 2) true [] text.toList ++ ['"'], by simp [value, style],
      .inr rfl, ?_, ?_⟩
    · simpa [eq] using behind.reads
    · exact List.forall_mem_append.2 ⟨isWritten_doubleFrom _ _ (by simp), by simp [IsWritten, isVisible]⟩

end Entry
end Flowchart.Yaml
