/-!
Cutting a text: behind a known beginning, or at the first place where something else begins. Both
return the pieces, and the pieces in order are the text.
-/
namespace Flowchart.Text

/-- What follows a beginning, if the text has that beginning. -/
def stripPrefix? : List Char → List Char → Option (List Char)
  | [], cs => some cs
  | _ :: _, [] => none
  | p :: ps, c :: cs => if p = c then stripPrefix? ps cs else none

theorem stripPrefix?_eq_some_iff {start cs rest : List Char} :
    stripPrefix? start cs = some rest ↔ cs = start ++ rest := by
  fun_induction stripPrefix? start cs with
  | case1 cs => simp
  | case2 => simp
  | case3 p ps cs ih => simp [ih]
  | case4 p ps c cs differ => simp [Ne.symm differ]

theorem stripPrefix?_append (start rest : List Char) :
    stripPrefix? start (start ++ rest) = some rest :=
  stripPrefix?_eq_some_iff.2 rfl

/-- Reads up to the first place where `found?` succeeds, unless a forbidden character or the end of
the text comes first. -/
def scanTo? {β : Type} (found? : List Char → Option (β × List Char)) (forbidden : Char → Bool) :
    List Char → Option (List Char × β × List Char)
  | [] => none
  | c :: cs =>
    if forbidden c then none
    else match found? (c :: cs) with
      | some (what, rest) => some ([], what, rest)
      | none => (scanTo? found? forbidden cs).map fun (text, what, rest) => (c :: text, what, rest)

/-- Nothing is lost up to the place where the search stops. -/
theorem eq_append_of_scanTo? {β : Type} {found? : List Char → Option (β × List Char)}
    {forbidden : Char → Bool} {cs text rest : List Char} {what : β}
    (h : scanTo? found? forbidden cs = some (text, what, rest)) :
    ∃ tail, cs = text ++ tail ∧ found? tail = some (what, rest) := by
  fun_induction scanTo? found? forbidden cs generalizing text with
  | case1 => simp at h
  | case2 => simp at h
  | case3 c cs allowed what' rest' eq =>
    simp only [Option.some.injEq, Prod.mk.injEq] at h
    obtain ⟨rfl, rfl, rfl⟩ := h
    exact ⟨c :: cs, rfl, eq⟩
  | case4 c cs allowed eq ih =>
    simp only [Option.map_eq_some_iff, Prod.exists, Prod.mk.injEq] at h
    obtain ⟨text', what', rest', inner, rfl, rfl, rfl⟩ := h
    obtain ⟨tail, split, at_⟩ := ih inner
    exact ⟨tail, by simp [split], at_⟩

/-- The longest beginning whose characters satisfy a predicate ends where a character does not. -/
theorem span_append {p : Char → Bool} {body rest : List Char} (inside : ∀ c ∈ body, p c = true)
    (boundary : ∀ c ∈ rest.head?, p c = false) :
    (body ++ rest).takeWhile p = body ∧ (body ++ rest).dropWhile p = rest := by
  rw [List.takeWhile_append_of_pos inside, List.dropWhile_append_of_pos inside]
  cases rest with
  | nil => simp
  | cons c rest => simp [boundary c rfl]

end Flowchart.Text
