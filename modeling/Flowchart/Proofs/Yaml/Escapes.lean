import Mathlib.Data.Nat.Digits.Defs
import Flowchart.Proofs.Yaml.Quoted
import Flowchart.Yaml.Entry

/-!
Values between double quotes. Every escape stands for the character that it was written for, and the lines
may be continued anywhere.
-/
namespace Flowchart.Yaml

open Text (codePoints)

/-- The digits that stand for a number in an escape. -/
def escapeDigits (width n : Nat) : List Char :=
  (Text.hexDigits width n).map Char.toUpper

theorem digitChar_upper : ∀ d : Fin 16, isHexDigit (Nat.digitChar d).toUpper = true ∧
    hexValue [(Nat.digitChar d).toUpper] = d ∧ Entry.isVisible (Nat.digitChar d).toUpper = true := by
  decide

theorem hexValue_append (digits : List Char) (c : Char) :
    hexValue (digits ++ [c]) = 16 * hexValue digits + hexValue [c] := by
  simp [hexValue]

/-- An induction over the digits of a number. -/
theorem upper_toDigits (n : Nat) : hexValue ((Nat.toDigits 16 n).map Char.toUpper) = n ∧
    ∀ c ∈ (Nat.toDigits 16 n).map Char.toUpper, isHexDigit c = true ∧ Entry.isVisible c = true := by
  induction n using Nat.strong_induction_on with
  | _ n ih =>
    by_cases small : n < 16
    · obtain ⟨isDigit, value, isVisible⟩ := digitChar_upper ⟨n, small⟩
      simpa [Nat.toDigits_of_lt_base small] using ⟨value, isDigit, isVisible⟩
    · have last := digitChar_upper ⟨n % 16, Nat.mod_lt _ (by decide)⟩
      obtain ⟨value, areDigits⟩ := ih (n / 16) (by omega)
      rw [Nat.toDigits_of_base_le (by decide) (by omega), List.map_append, List.map_singleton]
      refine ⟨?_, List.forall_mem_append.2 ⟨areDigits, by simpa using ⟨last.1, last.2.2⟩⟩⟩
      rw [hexValue_append, value, last.2.1]
      exact Nat.div_add_mod n 16

theorem hexValue_zeros (n : Nat) (digits : List Char) :
    hexValue (List.replicate n '0' ++ digits) = hexValue digits := by
  induction n with
  | zero => rfl
  | succ n ih =>
    rw [← ih]
    simp [hexValue, List.replicate_succ]

theorem escapeDigits_spec {width n : Nat} (some : 0 < width) (fits : n < 16 ^ width) :
    (escapeDigits width n).length = width ∧ hexValue (escapeDigits width n) = n ∧
      ∀ c ∈ escapeDigits width n, isHexDigit c = true ∧ Entry.isVisible c = true := by
  have short := (Nat.length_toDigits_le_iff (by decide) some).2 fits
  have upper : escapeDigits width n =
      List.replicate (width - (Nat.toDigits 16 n).length) '0' ++ (Nat.toDigits 16 n).map Char.toUpper := by
    simp [escapeDigits, Text.hexDigits, show Char.toUpper '0' = '0' by decide]
  obtain ⟨value, areDigits⟩ := upper_toDigits n
  rw [upper]
  refine ⟨by simp; omega, by rw [hexValue_zeros, value], List.forall_mem_append.2 ⟨?_, areDigits⟩⟩
  rintro c mem
  obtain rfl := List.eq_of_mem_replicate mem
  decide

namespace Entry

/-- The code points that characters have. -/
theorem toNat_cases (c : Char) : c.toNat < 0xD800 ∨ 0xDFFF < c.toNat ∧ c.toNat < 0x110000 :=
  c.valid

theorem lookup_shortEscapes : ∀ pair ∈ shortEscapes, Scalar.escapes.lookup pair.2 = some pair.1 := by
  decide

theorem visible_shortEscapes : ∀ pair ∈ shortEscapes, isVisible pair.2 = true := by
  decide

/-- A character with an escape is written as that escape, and any other as itself. -/
theorem escape?_cases (c : Char) :
    (escape? c = none ∧ isVisible c = true ∧ c ≠ '"' ∧ c ≠ '\\') ∨
    (∃ letter, escape? c = some ['\\', letter] ∧ Scalar.escapes.lookup letter = some c ∧ isVisible letter = true) ∨
    ∃ letter width, escape? c = some ('\\' :: letter :: escapeDigits width c.toNat) ∧
      Scalar.escapes.lookup letter = none ∧ Scalar.escapeLength? letter = some width ∧ 0 < width ∧
        c.toNat < 16 ^ width ∧ isVisible letter = true := by
  have codePoint := toNat_cases c
  cases found : shortEscapes.lookup c with
  | some letter =>
    obtain ⟨before, after, eq, -⟩ := List.lookup_eq_some_iff.1 found
    have mem : (c, letter) ∈ shortEscapes := by simp [eq]
    exact .inr (.inl ⟨letter, by simp [escape?, found], lookup_shortEscapes _ mem, visible_shortEscapes _ mem⟩)
  | none =>
    have differs {d : Char} (isSome : (shortEscapes.lookup d).isSome) : c ≠ d := by
      rintro rfl
      simp [found] at isSome
    by_cases visible : isVisible c
    · exact .inl ⟨by simp [escape?, found, visible], visible, differs (by decide), differs (by decide)⟩
    refine .inr (.inr ?_)
    by_cases byte : c.toNat < 0x100
    · exact ⟨'x', 2, by simp [escape?, found, visible, byte, escapeDigits], by decide, by decide, by decide, byte,
        by decide⟩
    by_cases short : c.toNat < 0x10000
    · exact ⟨'u', 4, by simp [escape?, found, visible, byte, short, escapeDigits], by decide, by decide, by decide,
        short, by decide⟩
    · exact ⟨'U', 8, by simp [escape?, found, visible, byte, short, escapeDigits], by decide, by decide, by decide,
        by omega, by decide⟩

/-- An escape stands for the character that it is written for. -/
theorem reads_escape {c : Char} {escaped rest text tail : List Char} (eq : escape? c = some escaped)
    (reads : Scalar.Reads '"' rest text tail) : Scalar.Reads '"' (escaped ++ rest) (c :: text) tail := by
  obtain ⟨none, -⟩ | ⟨letter, some, meaning, -⟩ | ⟨letter, width, some, unknown, length, positive, fits, -⟩ :=
    escape?_cases c
  · simp [none] at eq
  · obtain rfl : ['\\', letter] = escaped := Option.some.inj (some.symm.trans eq)
    refine reads.escaped [letter] [c] fun cursor there => ?_
    exact ⟨cursor.step, Cursor.rest_step there, by simp [Scalar.escape, Cursor.peek_of_rest there, meaning, codePoints]⟩
  · obtain rfl := Option.some.inj (some.symm.trans eq)
    obtain ⟨exact, value, areDigits⟩ := escapeDigits_spec positive fits
    refine reads.escaped (letter :: escapeDigits width c.toNat) [c] fun cursor there => ?_
    have behind : cursor.step.rest = escapeDigits width c.toNat ++ rest := Cursor.rest_step there
    have taken : cursor.step.rest.take width = escapeDigits width c.toNat := by
      rw [behind, List.take_left' exact]
    refine ⟨cursor.step.forward width, ?_, ?_⟩
    · rw [Cursor.rest_forward, behind, List.drop_left' exact]
    · have all : (escapeDigits width c.toNat).all isHexDigit = true :=
        List.all_eq_true.2 fun d mem => (areDigits d mem).1
      have codePoint := toNat_cases c
      have bound : ¬ 0x110000 ≤ c.toNat := by omega
      simp [Scalar.escape, Cursor.peek_of_rest there, unknown, length, taken, exact, all, value, bound, codePoints]

/-- An escape begins with a backslash. -/
theorem isSolid_escape {c : Char} {escaped : List Char} (eq : escape? c = some escaped) : IsSolid escaped := by
  obtain ⟨none, -⟩ | ⟨letter, some, -⟩ | ⟨letter, width, some, -⟩ := escape?_cases c
  · simp [none] at eq
  · obtain rfl := Option.some.inj (some.symm.trans eq)
    exact isSolid_cons.2 rfl
  · obtain rfl := Option.some.inj (some.symm.trans eq)
    exact isSolid_cons.2 rfl

theorem visible_of_escape {c : Char} {escaped : List Char} (eq : escape? c = some escaped) :
    ∀ d ∈ escaped, isVisible d = true := by
  obtain ⟨none, -⟩ | ⟨letter, some, -, isVisible⟩ | ⟨letter, width, some, -, -, positive, fits, isVisible⟩ :=
    escape?_cases c
  · simp [none] at eq
  · obtain rfl := Option.some.inj (some.symm.trans eq)
    simp [isVisible, show Entry.isVisible '\\' = true from rfl]
  · obtain rfl := Option.some.inj (some.symm.trans eq)
    obtain ⟨-, -, areDigits⟩ := escapeDigits_spec positive fits
    simpa [isVisible, show Entry.isVisible '\\' = true from rfl] using fun d mem => (areDigits d mem).2

/-- A character without an escape is visible, and it is no gap unless it is a space. -/
theorem not_isGap_of_escape {c : Char} (none : escape? c = none) (noSpace : c ≠ ' ') :
    isGap c = false ∧ c ≠ '"' ∧ c ≠ '\\' := by
  obtain ⟨-, visible, noQuote, noBackslash⟩ | ⟨letter, some, -⟩ | ⟨letter, width, some, -⟩ := escape?_cases c
  · simp only [isVisible, Bool.and_eq_true, decide_eq_true_eq] at visible
    exact ⟨isGap_of_visible (Std.lt_of_le_of_ne visible.1 (Ne.symm noSpace)) visible.2, noQuote, noBackslash⟩
  · simp [none] at some
  · simp [none] at some

/-- A character without an escape stands for itself. -/
theorem reads_literal {c : Char} {rest text tail : List Char} (none : escape? c = none)
    (reads : Scalar.Reads '"' rest text tail) (stays : Scalar.StaysInLine rest) :
    Scalar.Reads '"' (c :: rest) (c :: text) tail ∧ Scalar.StaysInLine (c :: rest) := by
  by_cases space : c = ' '
  · subst space
    exact ⟨reads.space rfl stays, stays.cons rfl⟩
  · obtain ⟨noGap, noQuote, noBackslash⟩ := not_isGap_of_escape none space
    exact ⟨reads.char noQuote (fun eq => absurd eq noBackslash) noGap,
      Scalar.staysInLine_of_isSolid (isSolid_cons.2 noGap)⟩

/-- At the head of a line that continues another one, a space has a backslash in front of it. -/
theorem reads_guarded {c : Char} {rest text tail : List Char} (none : escape? c = none)
    (reads : Scalar.Reads '"' rest text tail) (stays : Scalar.StaysInLine rest) :
    Scalar.Reads '"' ('\\' :: '\n' :: margin ++ ((if c = ' ' then ['\\'] else []) ++ c :: rest)) (c :: text) tail := by
  by_cases space : c = ' '
  · subst space
    refine Scalar.Reads.continued (?_ : Scalar.Reads '"' ('\\' :: ' ' :: rest) (' ' :: text) tail) (isSolid_cons.2 rfl)
    refine reads.escaped [' '] [' '] fun cursor there => ?_
    have known : Scalar.escapes.lookup ' ' = some ' ' := by decide
    exact ⟨cursor.step, Cursor.rest_step there, by simp [Scalar.escape, Cursor.peek_of_rest there, known, codePoints]⟩
  · rw [if_neg space]
    exact (reads_literal none reads stays).1.continued (isSolid_cons.2 (not_isGap_of_escape none space).1)

/-- Up to the quote that ends a value, a text is read as some characters. -/
structure ReadsAs (tail written cs : List Char) : Prop where
  reads : Scalar.Reads '"' (written ++ '"' :: tail) cs tail
  stays : Scalar.StaysInLine (written ++ '"' :: tail)
  solid : cs.head? ≠ some ' ' → IsSolid (written ++ '"' :: tail)

/-- The characters that are held back come first; then comes a text that is read as the rest of the value. -/
def Writes (tail cs : List Char) : Prop :=
  ∀ column isFirst held, ∃ written, doubleFrom column isFirst held cs = held ++ written ∧ ReadsAs tail written cs

section writes

variable {tail rest escaped : List Char} {c : Char}

theorem readsAs_of_solid {written cs : List Char} (reads : Scalar.Reads '"' (written ++ '"' :: tail) cs tail)
    (solid : IsSolid (written ++ '"' :: tail)) : ReadsAs tail written cs :=
  ⟨reads, Scalar.staysInLine_of_isSolid solid, fun _ => solid⟩

/-- Behind an escape the line may end, with a guard in front of a space. -/
theorem writes_escape (escapes : escape? c = some escaped) (writes : ∀ more, more <:+ rest → Writes tail more) :
    Writes tail (c :: rest) := by
  intro column isFirst held
  have solid (more : List Char) : IsSolid (escaped ++ more ++ '"' :: tail) := by
    rw [List.append_assoc]
    exact (isSolid_escape escapes).append _
  by_cases folds : !isFirst && !rest.isEmpty && width + 1 < column + (held ++ escaped).length
  · by_cases space : rest.head? = some ' '
    · -- The guard is written before it is known that the space behind it is, so one more step is taken.
      obtain ⟨rest, rfl⟩ := List.head?_eq_some_iff.1 space
      obtain ⟨written, eq, behind⟩ := writes rest (List.suffix_cons ' ' rest) 3 false [' ']
      have head : doubleFrom 3 false [] (' ' :: rest) = doubleFrom 3 false [' '] rest := by
        simp [doubleFrom, show escape? ' ' = none by decide, width]
      refine ⟨escaped ++ ('\\' :: '\n' :: margin ++ '\\' :: ' ' :: written), ?_, readsAs_of_solid ?_ (solid _)⟩
      · rw [doubleFrom, escapes]
        dsimp only
        rw [if_pos folds]
        simp [margin, head, eq]
      · simpa using reads_escape escapes (reads_guarded (c := ' ') (by decide) behind.reads behind.stays)
    · obtain ⟨written, eq, behind⟩ := writes rest List.suffix_rfl margin.length false []
      refine ⟨escaped ++ ('\\' :: '\n' :: margin ++ written), ?_, readsAs_of_solid ?_ (solid _)⟩
      · rw [doubleFrom, escapes]
        dsimp only
        rw [if_pos folds]
        simp [space, eq]
      · simpa [margin] using reads_escape escapes (behind.reads.continued (behind.solid space))
  · obtain ⟨written, eq, behind⟩ := writes rest List.suffix_rfl (column + (held ++ escaped).length) false []
    refine ⟨escaped ++ written, ?_, readsAs_of_solid ?_ (solid _)⟩
    · rw [doubleFrom, escapes]
      dsimp only
      rw [if_neg folds, eq]
      simp
    · rw [List.append_assoc]
      exact reads_escape escapes behind.reads

/-- In front of a character without an escape the line may end, with a guard if it is a space. -/
theorem writes_literal (none : escape? c = none) (writes : Writes tail rest) : Writes tail (c :: rest) := by
  intro column isFirst held
  by_cases folds : !isFirst && !rest.isEmpty && (c = ' ' || held.isEmpty) && width < column + held.length
  · obtain ⟨written, eq, behind⟩ := writes (margin.length + (if c = ' ' then ['\\'] else []).length) false [c]
    have solid :
        IsSolid ('\\' :: '\n' :: margin ++ ((if c = ' ' then ['\\'] else []) ++ c :: written) ++ '"' :: tail) :=
      isSolid_cons.2 rfl
    refine ⟨_, ?_, readsAs_of_solid ?_ solid⟩
    · rw [doubleFrom, none]
      dsimp only
      rw [if_pos folds]
      simp [eq]
    · simpa using reads_guarded none behind.reads behind.stays
  · obtain ⟨written, eq, behind⟩ := writes column false (held ++ [c])
    obtain ⟨reads, stays⟩ := reads_literal none behind.reads behind.stays
    refine ⟨c :: written, ?_, reads, stays, fun space => ?_⟩
    · rw [doubleFrom, none]
      dsimp only
      rw [if_neg folds]
      simp [eq]
    · exact isSolid_cons.2 (not_isGap_of_escape none (by simpa using space)).1

theorem writes_all (single : tail.headD '\x00' ≠ '\'') (cs : List Char) : Writes tail cs := by
  induction length : cs.length using Nat.strong_induction_on generalizing cs with
  | _ n ih =>
    cases cs with
    | nil =>
      have solid : IsSolid ('"' :: tail) := isSolid_cons.2 rfl
      exact fun column isFirst held => ⟨[], by simp [doubleFrom], readsAs_of_solid (Scalar.reads_end single) solid⟩
    | cons c rest =>
      have shorter (more : List Char) (isSuffix : more <:+ rest) : Writes tail more :=
        ih more.length (by rw [← length]; exact Nat.lt_succ_of_le isSuffix.length_le) more rfl
      cases escapes : escape? c with
      | some escaped => exact writes_escape escapes shorter
      | none => exact writes_literal escapes (shorter rest List.suffix_rfl)

end writes

end Entry
end Flowchart.Yaml
