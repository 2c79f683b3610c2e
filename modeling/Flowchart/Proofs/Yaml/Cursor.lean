import Flowchart.Text.Split
import Flowchart.Yaml.Cursor

/-!
Moving through a YAML text. A cursor steps over what lies in front of it and nothing else, and over visible
characters it stays in its line.
-/
namespace Flowchart.Yaml

/-- A text that begins with neither a space nor a tab nor the end of a line or of the text. -/
def IsSolid (rest : List Char) : Prop :=
  ∃ c ∈ rest.head?, isGap c = false

theorem isSolid_cons {c : Char} {rest : List Char} : IsSolid (c :: rest) ↔ isGap c = false := by
  simp [IsSolid]

theorem IsSolid.append {start : List Char} (solid : IsSolid start) (rest : List Char) :
    IsSolid (start ++ rest) := by
  obtain ⟨c, first, isNoGap⟩ := solid
  exact ⟨c, by simp [List.head?_append, Option.mem_def.1 first], isNoGap⟩

theorem IsSolid.exists_cons {rest : List Char} (solid : IsSolid rest) :
    ∃ c behind, rest = c :: behind ∧ isGap c = false := by
  obtain ⟨c, first, isNoGap⟩ := solid
  obtain ⟨behind, rfl⟩ := List.head?_eq_some_iff.1 first
  exact ⟨c, behind, rfl, isNoGap⟩

theorem isGap_of_isWhite {c : Char} (white : isWhite c = true) : isGap c = true := by
  simp only [isWhite, Bool.or_eq_true, decide_eq_true_eq] at white
  obtain rfl | rfl := white <;> decide

theorem isGap_of_isBreak {c : Char} (isBreak : isBreak c = true) : isGap c = true := by
  simp [isGap, isSpaceOrEnd, isLineEnd, isBreak]

theorem isWhite_of_not_isGap {c : Char} (noGap : isGap c = false) : isWhite c = false := by
  rw [Bool.eq_false_iff] at noGap ⊢
  exact noGap ∘ isGap_of_isWhite

theorem isBreak_of_not_isGap {c : Char} (noGap : isGap c = false) : isBreak c = false := by
  rw [Bool.eq_false_iff] at noGap ⊢
  exact noGap ∘ isGap_of_isBreak

/-- No character between the blank and the tilde but the blank itself is a gap. -/
theorem isGap_of_visible {c : Char} (least : ' ' < c) (most : c ≤ '~') : isGap c = false := by
  have least : 32 < c.toNat := least
  have most : c.toNat ≤ 126 := most
  have differs {d : Char} (outside : d.toNat ≤ 32 ∨ 126 < d.toNat) : c ≠ d := by
    rintro rfl
    omega
  simp [isGap, isSpaceOrEnd, isLineEnd, isBreak, differs (d := '\t') (by decide), differs (d := ' ') (by decide),
    differs (d := '\x00') (by decide), differs (d := '\r') (by decide), differs (d := '\n') (by decide),
    differs (d := '\u0085') (by decide), differs (d := '\u2028') (by decide), differs (d := '\u2029') (by decide)]

namespace Cursor

variable {cursor : Cursor} {c : Char} {rest : List Char}

theorem peek_of_rest (eq : cursor.rest = c :: rest) : cursor.peek = c := by
  simp [peek, eq]

theorem peek_one (eq : cursor.rest = c :: rest) : cursor.peek 1 = rest.headD '\x00' := by
  cases rest <;> simp [peek, eq]

theorem peek_nil (eq : cursor.rest = []) (ahead : Nat) : cursor.peek ahead = '\x00' := by
  simp [peek, eq]

theorem rest_step (eq : cursor.rest = c :: rest) : cursor.step.rest = rest := by
  simp only [step, eq]
  split <;> rfl

theorem rest_forward (cursor : Cursor) (n : Nat) : (cursor.forward n).rest = cursor.rest.drop n := by
  induction n generalizing cursor with
  | zero => rfl
  | succ n ih =>
    rw [forward, ih]
    cases eq : cursor.rest with
    | nil => simp [step, eq]
    | cons c rest => rw [rest_step eq, List.drop_succ_cons]

theorem rest_span (cursor : Cursor) (p : Char → Bool) : (cursor.span p).2.rest = cursor.rest.dropWhile p := by
  rw [span, rest_forward]
  have split : cursor.rest = cursor.rest.takeWhile p ++ cursor.rest.dropWhile p :=
    List.takeWhile_append_dropWhile.symm
  exact (congrArg (List.drop (cursor.rest.takeWhile p).length) split).trans List.drop_left

/-- Over characters that are no gaps and no byte order marks a cursor stays in its line. -/
theorem forward_append (word : List Char)
    (inLine : ∀ c ∈ word, (c = ' ' ∨ isGap c = false) ∧ c ≠ '\uFEFF') (eq : cursor.rest = word ++ rest) :
    cursor.forward word.length =
      ⟨rest, cursor.index + word.length, cursor.line, cursor.column + word.length⟩ := by
  induction word generalizing cursor with
  | nil =>
    obtain rfl : cursor.rest = rest := eq
    rfl
  | cons c word ih =>
    obtain ⟨⟨here, noMark⟩, behind⟩ := List.forall_mem_cons.1 inLine
    have noBreak : isBreak c = false := by
      obtain rfl | noGap := here
      · rfl
      · exact isBreak_of_not_isGap noGap
    simp only [isBreak, Bool.or_eq_false_iff, decide_eq_false_iff_not] at noBreak
    have stepped : cursor.step = ⟨word ++ rest, cursor.index + 1, cursor.line, cursor.column + 1⟩ := by
      simp [step, eq, noBreak, noMark]
    rw [List.length_cons, forward, stepped, ih behind rfl]
    simp only [Nat.add_assoc, Nat.add_comm 1]

/-- The characters that a span takes and the place behind them. -/
theorem span_eq {p : Char → Bool} {word : List Char} (inside : ∀ c ∈ word, p c = true)
    (boundary : ∀ c ∈ rest.head?, p c = false) (eq : cursor.rest = word ++ rest) :
    cursor.span p = (word, cursor.forward word.length) := by
  simp [span, eq, (Text.span_append inside boundary).1]

end Cursor
end Flowchart.Yaml
