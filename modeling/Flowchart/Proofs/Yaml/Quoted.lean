import Flowchart.Proofs.Yaml.Cursor
import Flowchart.Yaml.Scalar

/-!
Reading a scalar between quotes, one written form after the other: characters that stand for themselves,
spaces, line ends, escapes and lines that continue. Each lemma puts one form in front of a text that is
already known to be read.
-/
namespace Flowchart.Yaml.Scalar

open Text (codePoints)

/-- A text is read up to the quote that ends a scalar, from wherever it starts: what the scalar holds, and
what follows the quote. -/
def Reads (quote : Char) (rest text tail : List Char) : Prop :=
  ∀ (cursor : Cursor) (fuel : Nat), cursor.rest = rest → rest.length < fuel →
    ∃ behind, behind.rest = tail ∧ quotedFrom quote fuel cursor = .ok (codePoints text, behind)

/-- Spaces and tabs at the head of a text are not the last of their line. -/
def StaysInLine (rest : List Char) : Prop :=
  ∃ c ∈ (rest.dropWhile isWhite).head?, isLineEnd c = false

theorem staysInLine_of_isSolid {rest : List Char} (solid : IsSolid rest) : StaysInLine rest := by
  obtain ⟨c, behind, rfl, noGap⟩ := solid.exists_cons
  refine ⟨c, by simp [isWhite_of_not_isGap noGap], ?_⟩
  simp only [isGap, isSpaceOrEnd, Bool.or_eq_false_iff] at noGap
  exact noGap.2.2

theorem StaysInLine.cons {c : Char} {rest : List Char} (white : isWhite c = true) (stays : StaysInLine rest) :
    StaysInLine (c :: rest) := by
  simpa [StaysInLine, white] using stays

section
variable {quote : Char} {rest text tail : List Char}

/-- The quote ends the scalar, unless it is a single one that stands twice. -/
theorem reads_end (single : tail.headD '\x00' ≠ '\'') : Reads quote (quote :: tail) [] tail := by
  intro cursor fuel eq enough
  obtain ⟨fuel, rfl⟩ := Nat.exists_eq_add_of_lt enough
  refine ⟨cursor.step, Cursor.rest_step eq, ?_⟩
  simp only [quotedFrom, Cursor.peek_of_rest eq, Cursor.peek_one eq, single, decide_false, Bool.and_false]
  simp [pure, Except.pure, codePoints]

/-- What is read in one round stands in front of what is read behind it. -/
theorem Reads.step {whole : List Char} (shown : List Char) (reads : Reads quote rest text tail)
    (shorter : rest.length < whole.length)
    (round : ∀ (cursor : Cursor) (fuel : Nat), cursor.rest = whole → ∃ behind : Cursor, behind.rest = rest ∧
      quotedFrom quote (fuel + 1) cursor =
        (quotedFrom quote fuel behind).map fun (more, last) => (codePoints shown ++ more, last)) :
    Reads quote whole (shown ++ text) tail := by
  intro cursor fuel eq enough
  cases fuel with
  | zero => omega
  | succ fuel =>
    obtain ⟨behind, there, eqMore⟩ := round cursor fuel eq
    obtain ⟨last, eqTail, readMore⟩ := reads behind fuel there (by omega)
    refine ⟨last, eqTail, ?_⟩
    rw [eqMore, readMore, Text.codePoints_append]
    rfl

/-- A character that stands for itself. -/
theorem Reads.char {c : Char} (reads : Reads quote rest text tail) (noQuote : c ≠ quote)
    (noEscape : c = '\\' → quote ≠ '"') (noGap : isGap c = false) : Reads quote (c :: rest) (c :: text) tail := by
  refine reads.step [c] (by simp) fun cursor fuel eq => ⟨cursor.step, Cursor.rest_step eq, ?_⟩
  have noDouble : (c = '\'' && quote = '\'' && cursor.peek 1 = '\'') = false := by
    simpa using fun single quoteEq => absurd (single.trans quoteEq.symm) noQuote
  have noBackslash : (c = '\\' && quote = '"') = false := by
    simpa using noEscape
  rw [quotedFrom]
  simp only [Cursor.peek_of_rest eq, noDouble, noQuote, noBackslash, noGap, if_false, Bool.false_eq_true,
    pure_bind]
  cases quotedFrom quote fuel cursor.step <;> rfl

/-- A single quote, which stands twice. -/
theorem Reads.doubled (reads : Reads '\'' rest text tail) : Reads '\'' ('\'' :: '\'' :: rest) ('\'' :: text) tail := by
  refine reads.step ['\''] (by simp only [List.length_cons]; omega) fun cursor fuel eq => ⟨cursor.forward 2, ?_, ?_⟩
  · simp [Cursor.rest_forward, eq]
  · rw [quotedFrom]
    simp only [Cursor.peek_of_rest eq, Cursor.peek_one eq, List.headD_cons, decide_true, Bool.and_self, if_true,
    pure_bind]
    cases quotedFrom '\'' fuel (cursor.forward 2) <;> rfl

/-- What a backslash stands for. -/
theorem Reads.escaped (written shown : List Char) (reads : Reads '"' rest text tail)
    (meaning : ∀ cursor : Cursor, cursor.rest = written ++ rest → ∃ behind : Cursor, behind.rest = rest ∧
      escape cursor = .ok (codePoints shown, behind)) :
    Reads '"' ('\\' :: written ++ rest) (shown ++ text) tail := by
  refine reads.step shown (by simp only [List.length_cons, List.length_append]; omega) fun cursor fuel eq => ?_
  obtain ⟨behind, there, escaped⟩ := meaning cursor.step (Cursor.rest_step eq)
  refine ⟨behind, there, ?_⟩
  rw [quotedFrom]
  simp only [Cursor.peek_of_rest eq, escaped, bind, Except.bind]
  cases quotedFrom '"' fuel behind <;> rfl

/-- Spaces or line ends. -/
theorem quotedFrom_gap {c : Char} {behind : Cursor} {shown : List Char} {cursor : Cursor} (fuel : Nat)
    (noGap : isGap quote = false) (gap : isGap c = true) (eq : cursor.rest = c :: rest)
    (spaces : quotedSpaces cursor = .ok (shown, behind)) :
    quotedFrom quote (fuel + 1) cursor =
      (quotedFrom quote fuel behind).map fun (more, last) => (codePoints shown ++ more, last) := by
  have differs {d : Char} (isNoGap : isGap d = false) : c ≠ d := by
    rintro rfl
    simp [gap] at isNoGap
  rw [quotedFrom]
  simp only [Cursor.peek_of_rest eq, differs (d := '\'') (by decide), differs noGap, differs (d := '\\') (by decide),
    decide_false, Bool.false_and, if_false, Bool.false_eq_true, gap, if_true, spaces, bind, Except.bind, pure,
    Except.pure]
  cases quotedFrom quote fuel behind <;> rfl

/-- Spaces and tabs that are not the last of their line stand for themselves. -/
theorem quotedSpaces_white {cursor : Cursor} (stays : StaysInLine cursor.rest) :
    quotedSpaces cursor = .ok ((cursor.span isWhite).1, (cursor.span isWhite).2) := by
  obtain ⟨c, first, noEnd⟩ := stays
  rw [← Cursor.rest_span] at first
  obtain ⟨behind, eq⟩ := List.head?_eq_some_iff.1 first
  have peeked := Cursor.peek_of_rest eq
  simp only [isLineEnd, Bool.or_eq_false_iff, decide_eq_false_iff_not] at noEnd
  simp [quotedSpaces, peeked, noEnd]

/-- A space in front of a text. It joins spaces that begin the text. -/
theorem Reads.space (reads : Reads quote rest text tail) (noGap : isGap quote = false) (stays : StaysInLine rest) :
    Reads quote (' ' :: rest) (' ' :: text) tail := by
  intro cursor fuel eq enough
  obtain ⟨fuel, rfl⟩ := Nat.exists_eq_add_of_lt enough
  have stepped := Cursor.rest_step eq
  have taken : cursor.span isWhite = (' ' :: (cursor.step.span isWhite).1, (cursor.step.span isWhite).2) := by
    simp [Cursor.span, eq, stepped, Cursor.forward, show isWhite ' ' = true from rfl]
  have spaces : quotedSpaces cursor = .ok (' ' :: (cursor.step.span isWhite).1, (cursor.step.span isWhite).2) := by
    rw [← taken]
    exact quotedSpaces_white (eq ▸ stays.cons rfl)
  have read := quotedFrom_gap ((' ' :: rest).length + fuel) noGap rfl eq spaces
  -- The text behind the space is read with as much fuel as the whole, for its own spaces are taken along.
  cases first : rest.head?.any isWhite with
  | false =>
    have none : cursor.step.span isWhite = ([], cursor.step) := by
      have noWhite : rest.takeWhile isWhite = [] := by
        cases rest <;> simp_all
      simp [Cursor.span, stepped, noWhite, Cursor.forward]
    obtain ⟨last, eqTail, readMore⟩ := reads cursor.step ((' ' :: rest).length + fuel) stepped (by simp; omega)
    exact ⟨last, eqTail, by rw [read, none, readMore]; rfl⟩
  | true =>
    obtain ⟨c, rest, rfl⟩ : ∃ c rest', rest = c :: rest' := by
      cases rest <;> simp_all
    have white : isWhite c = true := by simpa using first
    obtain ⟨last, eqTail, readMore⟩ := reads cursor.step ((' ' :: c :: rest).length + fuel + 1) stepped (by simp; omega)
    rw [quotedFrom_gap _ noGap (isGap_of_isWhite white) stepped (quotedSpaces_white (stepped ▸ stays))] at readMore
    refine ⟨last, eqTail, ?_⟩
    rw [read]
    cases readTail : quotedFrom quote ((' ' :: c :: rest).length + fuel) (cursor.step.span isWhite).2 with
    | error fault =>
      rw [readTail] at readMore
      cases readMore
    | ok found =>
      rw [readTail] at readMore
      obtain ⟨isText, rfl⟩ : codePoints (cursor.step.span isWhite).1 ++ found.1 = codePoints text ∧ found.2 = last := by
        simpa only [Except.map, Except.ok.injEq, Prod.mk.injEq] using readMore
      exact congrArg (fun text => Except.ok (.char ' ' :: text, found.2)) isText

/-- Blank lines, and the margin of the line that follows them. -/
theorem quotedBreaks_run {n fuel : Nat} {cursor : Cursor} (solid : IsSolid rest)
    (eq : cursor.rest = List.replicate n '\n' ++ ' ' :: ' ' :: rest) (enough : n < fuel) :
    ∃ behind : Cursor, behind.rest = rest ∧ quotedBreaks fuel cursor = .ok (List.replicate n '\n', behind) := by
  induction n generalizing fuel cursor with
  | zero =>
    obtain ⟨fuel, rfl⟩ := Nat.exists_eq_add_of_lt enough
    obtain ⟨c, behind, rfl, isNoGap⟩ := solid.exists_cons
    have there := Cursor.rest_span cursor isWhite
    simp [eq, show isWhite ' ' = true from rfl, isWhite_of_not_isGap isNoGap] at there
    refine ⟨_, there, ?_⟩
    simp [quotedBreaks, Cursor.atSeparator, eq, Cursor.skip, Cursor.peek_of_rest there, isBreak_of_not_isGap isNoGap]
  | succ n ih =>
    obtain ⟨fuel, rfl⟩ := Nat.exists_eq_add_of_lt enough
    have feed : cursor.rest = '\n' :: (List.replicate n '\n' ++ ' ' :: ' ' :: rest) := by
      simpa [List.replicate_succ] using eq
    obtain ⟨behind, there, read⟩ := ih (Cursor.rest_step feed) (show n < n + 1 + fuel by omega)
    refine ⟨behind, there, ?_⟩
    have stays : cursor.skip isWhite = cursor := by
      simp [Cursor.skip, Cursor.span, feed, Cursor.forward, show isWhite '\n' = false from rfl]
    simp [quotedBreaks, Cursor.atSeparator, feed, stays, Cursor.peek_of_rest feed, Cursor.lineBreak, isBreak, read,
      List.replicate_succ, bind, Except.bind, pure, Except.pure]

/-- A line end: with blank lines behind it, it counts for as many line ends, and without them for a space. -/
theorem Reads.feed {n : Nat} (reads : Reads quote rest text tail) (noGap : isGap quote = false) (solid : IsSolid rest) :
    Reads quote ('\n' :: List.replicate n '\n' ++ ' ' :: ' ' :: rest)
      ((if n = 0 then [' '] else List.replicate n '\n') ++ text) tail := by
  refine reads.step _ (by simp only [List.length_cons, List.length_append]; omega) fun cursor fuel eq => ?_
  have enough : n < cursor.step.rest.length + 1 := by
    simp only [Cursor.rest_step eq, List.append_eq, List.length_append, List.length_replicate]
    omega
  obtain ⟨behind, there, read⟩ := quotedBreaks_run solid (Cursor.rest_step eq) enough
  refine ⟨behind, there, quotedFrom_gap _ noGap rfl eq ?_⟩
  have none : cursor.span isWhite = ([], cursor) := by
    simp [Cursor.span, eq, Cursor.forward, show isWhite '\n' = false from rfl]
  have blank : (List.replicate n '\n').isEmpty = decide (n = 0) := by
    cases n <;> simp [List.replicate_succ]
  simp [quotedSpaces, none, Cursor.peek_of_rest eq, Cursor.lineBreak, isBreak, read, foldBreak, blank, bind,
    Except.bind, pure, Except.pure]

/-- A line that ends with a backslash goes on behind the margin of the next one. -/
theorem Reads.continued (reads : Reads '"' rest text tail) (solid : IsSolid rest) :
    Reads '"' ('\\' :: '\n' :: ' ' :: ' ' :: rest) text tail := by
  refine reads.escaped ['\n', ' ', ' '] [] fun cursor eq => ?_
  obtain ⟨behind, there, read⟩ :=
    quotedBreaks_run (n := 0) solid (Cursor.rest_step eq) (show 0 < cursor.rest.length by simp [eq])
  refine ⟨behind, there, ?_⟩
  have unknown : escapes.lookup '\n' = none := by decide
  simp only [List.replicate_zero] at read
  simp only [escape, Cursor.peek_of_rest eq, ↓Char.isValue, unknown, escapeLength?, Char.reduceEq, ↓reduceIte, isBreak,
    decide_false, decide_true, Bool.or_true, Bool.or_false, Cursor.lineBreak, Bool.false_and, Bool.false_eq_true, read,
    bind_pure_comp]
  rfl

end
end Flowchart.Yaml.Scalar
