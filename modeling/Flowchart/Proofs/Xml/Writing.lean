import Flowchart.Proofs.Xml.Reading

/-!
What is written for a tree is a document, and the tree is its only reading: no text and no value of an attribute can
add markup to it or take some away.
-/
namespace Flowchart.Xml

variable {c : Char} {text rest : List Char} {items : List Item}

/-- All characters of a text are such as a document may have. -/
def Legal (text : String) : Prop :=
  text.toList.all isLegal = true

instance (text : String) : Decidable (Legal text) :=
  inferInstanceAs (Decidable (_ = true))

/-- An element and those inside it, with the names of their attributes. -/
inductive Frame where
  | mk (name : String) (attributes : List String) (children : List Frame)

/-- Names are names, and those of the attributes of an element differ. -/
def Frame.isValid : Frame → Bool
  | mk name attributes children =>
    isName name.toList && attributes.all (fun name => isName name.toList) && attributes.Nodup && areValid children
where
  areValid : List Frame → Bool
    | [] => true
    | child :: rest => child.isValid && areValid rest

namespace Element

/-- What is left of an element without its texts and without the values of its attributes. -/
def frame : Element → Frame
  | mk name attributes _ children => ⟨name, attributes.map Prod.fst, framesOf children⟩
where
  framesOf : List Element → List Frame
    | [] => []
    | child :: rest => child.frame :: framesOf rest

/-- What a reader should make of an element: its text comes before its children. -/
def item : Element → Item
  | mk name attributes text children => .element name attributes (text.toList.map .char ++ itemsOf children)
where
  itemsOf : List Element → List Item
    | [] => []
    | child :: rest => child.item :: itemsOf rest

/-- All values and texts are legal, and no text has a carriage return, which would be read as a line feed. -/
inductive IsLegal : Element → Prop
  | mk {name attributes text children} : (∀ pair ∈ attributes, Legal pair.2) → Legal text → '\r' ∉ text.toList →
      (∀ child ∈ children, IsLegal child) → IsLegal (mk name attributes text children)

end Element

theorem Frame.areValid_eq (frames : List Frame) : isValid.areValid frames = frames.all isValid := by
  induction frames with
  | nil => rfl
  | cons frame frames ih => rw [isValid.areValid, ih, List.all_cons]

theorem Element.framesOf_eq (children : List Element) : frame.framesOf children = children.map frame := by
  induction children with
  | nil => rfl
  | cons child children ih => rw [frame.framesOf, ih, List.map_cons]

theorem Element.isValid_iff {name text : String} {attributes : List (String × String)} {children : List Element} :
    (mk name attributes text children).frame.isValid = true ↔ isName name.toList = true ∧
      (∀ pair ∈ attributes, isName pair.1.toList = true) ∧ (attributes.map Prod.fst).Nodup ∧
        ∀ child ∈ children, child.frame.isValid = true := by
  rw [frame, Frame.isValid, Frame.areValid_eq, framesOf_eq]
  simp [and_assoc]

/-- In a text a character stands for itself or is written as a reference. -/
theorem textChar_cases (c : Char) : (∃ body, textChar c = '&' :: body ++ [';'] ∧ Reference body c) ∨
    textChar c = [c] ∧ c ≠ '<' ∧ c ≠ '&' ∧ c ≠ '>' := by
  unfold textChar
  split
  · exact .inl ⟨['a', 'm', 'p'], rfl, .entity (by decide)⟩
  · exact .inl ⟨['l', 't'], rfl, .entity (by decide)⟩
  · exact .inl ⟨['g', 't'], rfl, .entity (by decide)⟩
  · exact .inr ⟨rfl, by assumption, by assumption, by assumption⟩

theorem attributeChar_cases (c : Char) : (∃ body, attributeChar c = '&' :: body ++ [';'] ∧ Reference body c) ∨
    attributeChar c = [c] ∧ c ≠ '<' ∧ c ≠ '&' ∧ c ≠ '"' ∧ (if isSpace c then ' ' else c) = c := by
  unfold attributeChar
  split
  · exact .inl ⟨['q', 'u', 'o', 't'], rfl, .entity (by decide)⟩
  · exact .inl ⟨['#', '1', '3'], rfl, .decimal (by decide) (by decide) (by decide) (by decide)⟩
  · exact .inl ⟨['#', '1', '0'], rfl, .decimal (by decide) (by decide) (by decide) (by decide)⟩
  · exact .inl ⟨['#', '0', '9'], rfl, .decimal (by decide) (by decide) (by decide) (by decide)⟩
  · rename_i notQuote notReturn notLine notTab
    refine (textChar_cases c).imp_right fun ⟨itself, notTag, notReference, _⟩ => ?_
    refine ⟨itself, notTag, notReference, notQuote, ?_⟩
    by_cases isBlank : c = ' '
    · rw [isBlank]
      rfl
    · have other : isSpace c = false := by
        simpa [isSpace] using ⟨⟨⟨isBlank, notTab⟩, notLine⟩, notReturn⟩
      rw [other]
      rfl

/-- What is written for a text are references and characters of its own, of which no closing bracket is left. -/
theorem mem_textChars (mem : c ∈ text.flatMap textChar) :
    (c ∈ text ∧ c ≠ '>') ∨ isReferenceChar c = true ∨ c ∈ ['&', ';'] := by
  obtain ⟨d, isChar, mem⟩ := List.mem_flatMap.1 mem
  rcases textChar_cases d with ⟨body, written, reference⟩ | ⟨written, -, -, other⟩
  · rw [written] at mem
    simp only [List.mem_append, List.mem_cons, List.not_mem_nil, or_false] at mem ⊢
    rcases mem with (isFirst | inBody) | isLast
    · exact .inr (.inr (.inl isFirst))
    · exact .inr (.inl (List.all_eq_true.1 reference.all_isReferenceChar c inBody))
    · exact .inr (.inr (.inr isLast))
  · rw [written, List.mem_singleton] at mem
    exact .inl ⟨mem ▸ isChar, mem ▸ other⟩

theorem not_mem_textChars (text : List Char) : '>' ∉ text.flatMap textChar := by
  intro mem
  rcases mem_textChars mem with ⟨-, other⟩ | isReference
  · exact other rfl
  · exact absurd isReference (by decide)

theorem return_not_mem_textChars (absent : '\r' ∉ text) : '\r' ∉ text.flatMap textChar := by
  intro mem
  rcases mem_textChars mem with ⟨isChar, -⟩ | isReference
  · exact absent isChar
  · exact absurd isReference (by decide)

theorem not_prefix_sectionEnd (absent : '>' ∉ text) (tag : ∀ c ∈ rest.head?, c = '<') :
    ¬[']', ']', '>'] <+: text ++ rest := by
  rintro ⟨behind, same⟩
  -- The mark would start in the text and end behind it, where a tag begins.
  match text with
  | [] =>
    obtain rfl : _ = rest := same
    exact absurd (tag ']' rfl) (by decide)
  | [_] =>
    obtain ⟨-, rfl⟩ := List.cons.inj same
    exact absurd (tag ']' rfl) (by decide)
  | [_, _] =>
    obtain ⟨-, same⟩ := List.cons.inj same
    obtain ⟨-, rfl⟩ := List.cons.inj same
    exact absurd (tag '>' rfl) (by decide)
  | _ :: _ :: _ :: _ =>
    simp only [List.cons_append, List.cons.injEq] at same
    simp [← same.2.2.1] at absent

theorem content_text (legal : text.all isLegal = true) (tag : ∀ c ∈ rest.head?, c = '<')
    (content : Content rest items) : Content (text.flatMap textChar ++ rest) (text.map .char ++ items) := by
  induction text with
  | nil => exact content
  | cons c text ih =>
    rw [List.all_cons, Bool.and_eq_true] at legal
    have behind := ih legal.2
    rw [List.flatMap_cons, List.append_assoc, List.map_cons, List.cons_append]
    rcases textChar_cases c with ⟨body, written, reference⟩ | ⟨written, notTag, notReference, notClosing⟩
    · rw [written, List.append_assoc]
      exact .reference reference behind
    · have absent : '>' ∉ c :: text.flatMap textChar :=
        List.not_mem_cons_of_ne_of_not_mem notClosing.symm (not_mem_textChars text)
      rw [written]
      exact .char legal.1 notTag notReference (not_prefix_sectionEnd absent tag) behind

theorem value_chars (legal : text.all isLegal = true) : Value '"' (text.flatMap attributeChar) text := by
  induction text with
  | nil => exact .nil
  | cons c text ih =>
    rw [List.all_cons, Bool.and_eq_true] at legal
    have behind := ih legal.2
    rw [List.flatMap_cons]
    rcases attributeChar_cases c with ⟨body, written, reference⟩ | ⟨written, notTag, notReference, notQuote, itself⟩
    · rw [written, List.append_assoc]
      exact .reference reference behind
    · rw [written]
      nth_rewrite 2 [← itself]
      exact .char legal.1 notQuote notTag notReference behind

theorem attributes_chars {attributes : List (String × String)}
    (names : ∀ pair ∈ attributes, isName pair.1.toList = true) (legal : ∀ pair ∈ attributes, Legal pair.2) :
    Attributes (attributes.flatMap attributeChars) attributes := by
  induction attributes with
  | nil => exact .nil
  | cons pair attributes ih =>
    obtain ⟨isName, names⟩ := List.forall_mem_cons.1 names
    obtain ⟨isLegal, legal⟩ := List.forall_mem_cons.1 legal
    have written : Attributes ([' '] ++ pair.1.toList ++ [] ++ '=' :: [] ++
        '"' :: pair.2.toList.flatMap attributeChar ++ '"' :: attributes.flatMap attributeChars)
        ((String.ofList pair.1.toList, String.ofList pair.2.toList) :: attributes) :=
      .cons (by simp) (by decide) isName rfl rfl (by simp) (value_chars isLegal) (ih names legal)
    simp only [String.ofList_toList] at written
    simpa [attributeChars] using written

theorem return_not_mem_attributes {attributes : List (String × String)}
    (names : ∀ pair ∈ attributes, isName pair.1.toList = true) : '\r' ∉ attributes.flatMap attributeChars := by
  intro mem
  obtain ⟨pair, isPair, mem⟩ := List.mem_flatMap.1 mem
  have notName : '\r' ∉ pair.1.toList := not_mem_name (names pair isPair) (by decide)
  have notValue : '\r' ∉ pair.2.toList.flatMap attributeChar := by
    intro mem
    obtain ⟨c, -, mem⟩ := List.mem_flatMap.1 mem
    rcases attributeChar_cases c with ⟨body, written, reference⟩ | ⟨written, -, -, -, itself⟩
    · have notBody : '\r' ∉ body := reference.not_mem (by decide)
      simp [written, notBody] at mem
    · rw [written, List.mem_singleton] at mem
      subst mem
      exact absurd itself (by decide)
  simp only [attributeChars, List.cons_append, List.mem_cons, List.mem_append, List.not_mem_nil] at mem
  simp [notName, notValue] at mem

namespace Element

theorem head_charsOfList (children : List Element) : ∀ c ∈ (chars.charsOfList children).head?, c = '<' := by
  cases children with
  | nil => simp [chars.charsOfList]
  | cons child children =>
    obtain ⟨name, attributes, text, children⟩ := child
    rw [chars.charsOfList, chars]
    split <;> simp

theorem content_charsOfList {children : List Element} (each : ∀ child ∈ children, ∀ {rest : List Char}
      {items : List Item}, Content rest items → Content (child.chars ++ rest) (child.item :: items)) :
    Content (chars.charsOfList children) (item.itemsOf children) := by
  induction children with
  | nil => exact .nil
  | cons child children ih =>
    obtain ⟨first, each⟩ := List.forall_mem_cons.1 each
    exact first (ih each)

theorem content_chars {element : Element} (valid : element.frame.isValid = true) (legal : element.IsLegal)
    {rest : List Char} {items : List Item} (content : Content rest items) :
    Content (element.chars ++ rest) (element.item :: items) := by
  induction legal generalizing rest items with
  | @mk name attributes text children legal isLegal noReturn _ ih =>
    obtain ⟨isName, names, nodup, valid⟩ := isValid_iff.1 valid
    have isAttributes := attributes_chars names legal
    have inner : Content (text.toList.flatMap textChar ++ chars.charsOfList children)
        (text.toList.map .char ++ item.itemsOf children) := by
      refine content_text isLegal (head_charsOfList children) (content_charsOfList ?_)
      exact fun child mem => ih child mem (valid child mem)
    rw [chars, item]
    split
    · rename_i empty
      obtain ⟨rfl, none⟩ := by simpa using empty
      subst none
      have written := Content.empty isName isAttributes nodup (by decide : [' '].all isSpace = true) content
      rw [String.ofList_toList] at written
      simpa [item.itemsOf] using written
    · have written := Content.element isName isAttributes nodup (rfl : [].all isSpace = true) inner
        (rfl : [].all isSpace = true) content
      rw [String.ofList_toList] at written
      simpa using written

theorem mem_charsOfList {children : List Element} :
    c ∈ chars.charsOfList children ↔ ∃ child ∈ children, c ∈ child.chars := by
  induction children with
  | nil => simp [chars.charsOfList]
  | cons child children ih => simp [chars.charsOfList, ih]

theorem return_not_mem_chars {element : Element} (valid : element.frame.isValid = true) (legal : element.IsLegal) :
    '\r' ∉ element.chars := by
  induction legal with
  | @mk name attributes text children _ _ noReturn _ ih =>
    obtain ⟨isName, names, -, valid⟩ := isValid_iff.1 valid
    have notName : '\r' ∉ name.toList := not_mem_name isName (by decide)
    have notAttributes := return_not_mem_attributes names
    have notText := return_not_mem_textChars noReturn
    have notChildren : '\r' ∉ chars.charsOfList children := by
      intro mem
      obtain ⟨child, isChild, mem⟩ := mem_charsOfList.1 mem
      exact ih child isChild (valid child isChild) mem
    rw [chars]
    split <;> simp [notName, notAttributes, notText, notChildren]

theorem isDocument_iff {element : Element} (valid : element.frame.isValid = true) (legal : element.IsLegal)
    (tree : Item) : IsDocument element.render tree ↔ tree = element.item := by
  have content : Content (Text.unifyNewlines element.render.toList) [element.item] := by
    rw [render, String.toList_ofList, Text.unifyNewlines_of_not_mem (return_not_mem_chars valid legal)]
    simpa using content_chars valid legal .nil
  constructor
  · rintro ⟨front, behind, -, -, other⟩
    have only := other.unique content
    cases front with
    | nil => exact (List.cons.inj only).1
    | cons => simp at only
  · rintro rfl
    obtain ⟨name, attributes, text, children⟩ := element
    exact ⟨[], [], rfl, rfl, content⟩

end Element

end Flowchart.Xml
