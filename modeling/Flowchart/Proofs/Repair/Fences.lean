import Flowchart.Repair
import Flowchart.Proofs.Text.Trimming

/-!
Answers without fences. Fences go from the left, three backticks at a time, so at most two backticks stay of a run, and
the character behind them stays as well. What is left never makes up another fence, and of a text between fences nothing
is lost but the blanks around it.
-/
namespace Flowchart.Repair

/-- What opens and closes a block of code. -/
def fence : List Char :=
  List.replicate 3 '\x60'

/-- A block of code: a text on lines of its own between two fences, with the name of a language behind the first. -/
def fenced (language text : String) : String :=
  String.ofList (fence ++ language.toList ++ '\n' :: text.toList ++ '\n' :: fence)

/-- What becomes of an answer. -/
structure Unfences (answer text : String) : Prop where
  noFence : ¬fence <:+: text.toList
  trimmed : Text.IsTrimmed text.toList
  stable : clean text = text
  block : ∀ language inner, answer = fenced language inner → (∀ c ∈ language.toList, isLetter c = true) →
    '\x60' ∉ inner.toList → text = Text.trim inner

variable {c : Char} {cs word : List Char} {inName : Bool}

theorem dropFences_fence (inName : Bool) (cs : List Char) : dropFences inName (fence ++ cs) = dropFences true cs :=
  rfl

theorem dropFences_cons (open_ : ¬fence <+: c :: cs) : dropFences inName (c :: cs) =
    if inName && isLetter c then dropFences true cs else c :: dropFences false cs := by
  rw [dropFences.eq_2]
  rintro rest rfl rfl
  exact open_ ⟨rest, rfl⟩

/-- Behind other text than a fence, a character stays if it starts no fence. -/
theorem dropFences_kept (open_ : ¬fence <+: c :: cs) : dropFences false (c :: cs) = c :: dropFences false cs := by
  rw [dropFences_cons open_, Bool.false_and, if_neg Bool.false_ne_true]

theorem not_fence_of_ne (other : c ≠ '\x60') : ¬fence <+: c :: cs := by
  rintro ⟨rest, split⟩
  exact other (List.cons.inj split).1.symm

/-- Backticks that start what is left have started the text, up to a whole fence. -/
theorem prefix_of_dropFences {count : Nat} (bound : count ≤ 3)
    (isPrefix : List.replicate count '\x60' <+: dropFences false cs) : List.replicate count '\x60' <+: cs := by
  induction count generalizing cs with
  | zero => exact List.nil_prefix
  | succ count ih =>
    by_cases closed : fence <+: cs
    · refine List.IsPrefix.trans ?_ closed
      exact List.prefix_replicate_iff.2 ⟨by rwa [List.length_replicate], by rw [List.length_replicate]⟩
    · cases cs with
      | nil => exact isPrefix
      | cons c cs =>
        rw [dropFences_kept closed, List.replicate_succ, List.cons_prefix_cons] at isPrefix
        rw [List.replicate_succ, List.cons_prefix_cons]
        exact ⟨isPrefix.1, ih (Nat.le_of_succ_le bound) isPrefix.2⟩

theorem noFence_dropFences (inName : Bool) (cs : List Char) : ¬fence <:+: dropFences inName cs := by
  fun_induction dropFences inName cs with
  | case1 inName rest ih => exact ih
  | case2 inName c rest open_ isName ih => exact ih
  | case3 inName c rest open_ isText ih =>
    rw [List.infix_cons_iff]
    rintro (isPrefix | within)
    · -- The fence would have stood there before.
      rw [fence, List.replicate_succ, List.cons_prefix_cons] at isPrefix
      obtain ⟨back, rfl⟩ := prefix_of_dropFences (by omega) isPrefix.2
      exact open_ back isPrefix.1.symm rfl
    · exact ih within
  | case4 =>
    rw [List.infix_nil]
    exact List.cons_ne_nil _ _

theorem dropFences_of_noFence (free : ¬fence <:+: cs) : dropFences false cs = cs := by
  induction cs with
  | nil => rfl
  | cons c cs ih =>
    rw [List.infix_cons_iff, not_or] at free
    rw [dropFences_kept free.1, ih free.2]

/-- The name of a language goes with the fence in front of it. -/
theorem dropFences_name (isName : ∀ c ∈ word, isLetter c = true) :
    dropFences true (word ++ cs) = dropFences true cs := by
  induction word with
  | nil => rfl
  | cons c word ih =>
    obtain ⟨isFirst, isName⟩ := List.forall_mem_cons.1 isName
    have other : c ≠ '\x60' := by
      rintro rfl
      cases isFirst
    rw [List.cons_append, dropFences_cons (not_fence_of_ne other), isFirst, Bool.true_and, if_pos rfl, ih isName]

theorem dropFences_append (noTick : '\x60' ∉ word) : dropFences false (word ++ cs) = word ++ dropFences false cs := by
  induction word with
  | nil => rfl
  | cons c word ih =>
    rw [List.mem_cons, not_or] at noTick
    rw [List.cons_append, dropFences_kept (not_fence_of_ne (Ne.symm noTick.1)), ih noTick.2, List.cons_append]

theorem clean_eq (answer : String) :
    (clean answer).toList = Text.trimChars (dropFences false answer.toList) := by
  rw [clean, String.toList_ofList]

theorem clean_fenced {language text : String} (isName : ∀ c ∈ language.toList, isLetter c = true)
    (noTick : '\x60' ∉ text.toList) : clean (fenced language text) = Text.trim text := by
  have feed : ∀ c ∈ ['\n'], Text.isBlank c = true := List.forall_mem_singleton.2 rfl
  have lines : '\x60' ∉ ['\n'] ++ text.toList ++ ['\n'] := by simpa using noTick
  have dropped : dropFences false (fenced language text).toList = ['\n'] ++ text.toList ++ ['\n'] := calc
    _ = dropFences false (fence ++ (language.toList ++ '\n' :: (text.toList ++ '\n' :: fence))) := by
      simp [fenced]
    _ = dropFences true ('\n' :: (text.toList ++ '\n' :: fence)) := by
      rw [dropFences_fence, dropFences_name isName]
    _ = dropFences false (['\n'] ++ text.toList ++ ['\n'] ++ fence) := by
      simp [dropFences, isLetter]
    _ = ['\n'] ++ text.toList ++ ['\n'] := by
      rw [dropFences_append lines]
      exact List.append_nil _
  rw [clean, dropped, Text.trimChars_between feed feed, Text.trim]

/-- Cleaning takes every fence from an answer, and of a block of code nothing else. -/
theorem unfences_clean (answer : String) : Unfences answer (clean answer) := by
  have noFence : ¬fence <:+: (clean answer).toList := by
    rw [clean_eq]
    exact fun within => noFence_dropFences _ _ (within.trans (Text.isInfix_trimChars _))
  have trimmed : Text.IsTrimmed (clean answer).toList := by
    rw [clean_eq]
    exact Text.isTrimmed_trimChars _
  constructor
  case noFence => exact noFence
  case trimmed => exact trimmed
  case stable =>
    rw [clean, dropFences_of_noFence noFence, Text.trimChars_of_isTrimmed trimmed, String.ofList_toList]
  case block =>
    rintro language inner rfl isName noTick
    exact clean_fenced isName noTick

theorem unfences_clean_indented : clean (fenced "Mermaid" "  graph TD\n\n") = Text.trim "  graph TD\n\n" :=
  (unfences_clean _).block "Mermaid" "  graph TD\n\n" rfl (List.all_eq_true.1 (by decide)) (by decide)

/-- A run of five backticks in front of a word, and a run of four behind it. -/
example : clean "\x60\x60\x60\x60\x60js\x60\x60\x60\x60" = "\x60\x60js\x60" := by decide +kernel

end Flowchart.Repair
