import Flowchart.Proofs.Xml.Grammar
import Flowchart.Text.Split
import Mathlib.Data.List.Infix

/-!
A text has at most one reading. A reader that takes it for granted that its text is well-formed, and so checks
nothing, finds whatever reading the rules allow.
-/
namespace Flowchart.Xml

namespace Reader

/-- What stands in front of the first place where the mark begins, and what follows the mark. -/
def cut (mark : List Char) : List Char → List Char × List Char
  | [] => ([], [])
  | c :: cs =>
    if mark <+: c :: cs then ([], (c :: cs).drop mark.length)
    else
      let (before, behind) := cut mark cs
      (c :: before, behind)

/-- What a reference refers to. -/
def refer : List Char → Char
  | '#' :: 'x' :: digits => Char.ofNat (Yaml.hexValue digits)
  | '#' :: digits => Char.ofNat (Number.digitsValue digits)
  | name => (entities.lookup name).getD default

/-- The value that a quoted text gives an attribute. -/
def unquote : Nat → List Char → List Char
  | 0, _ => []
  | _ + 1, [] => []
  | fuel + 1, c :: cs =>
    if c = '&' then
      let (body, rest) := cut [';'] cs
      refer body :: unquote fuel rest
    else (if isSpace c then ' ' else c) :: unquote fuel cs

/-- The attributes at the head of a text, and what follows them and the blanks behind them. -/
def pairs : Nat → List Char → List (String × String) × List Char
  | 0, cs => ([], cs)
  | fuel + 1, cs =>
    let cs := cs.dropWhile isSpace
    if cs.head?.any isNameStart then
      let sign := (cs.dropWhile isNameChar).dropWhile isSpace
      let quoted := sign.tail.dropWhile isSpace
      let (text, rest) := cut [quoted.headD default] quoted.tail
      let (more, rest) := pairs fuel rest
      ((String.ofList (cs.takeWhile isNameChar), String.ofList (unquote (text.length + 1) text)) :: more, rest)
    else ([], cs)

/-- What a piece of content is, by its first characters. -/
inductive Kind where
  | stop | char | reference | comment | raw | instruction | element

def kind : List Char → Kind
  | [] => .stop
  | '&' :: _ => .reference
  | '<' :: '/' :: _ => .stop
  | '<' :: '!' :: '-' :: _ => .comment
  | '<' :: '!' :: _ => .raw
  | '<' :: '?' :: _ => .instruction
  | '<' :: _ => .element
  | _ => .char

/-- The items up to the end of a text or to an end tag, and the rest from there on. -/
def items : Nat → List Char → List Item × List Char
  | 0, cs => ([], cs)
  | fuel + 1, cs =>
    let followed (item : Item) (rest : List Char) : List Item × List Char :=
      let (more, rest) := items fuel rest
      (item :: more, rest)
    match kind cs with
    | .stop => ([], cs)
    | .char => followed (.char (cs.headD default)) cs.tail
    | .reference =>
      let (body, rest) := cut [';'] cs.tail
      followed (.char (refer body)) rest
    | .comment =>
      let (body, rest) := cut ['-', '-'] (cs.drop 4)
      followed (.comment body) rest.tail
    | .raw =>
      let (body, rest) := cut [']', ']', '>'] (cs.drop 9)
      followed (.raw body) rest
    | .instruction =>
      let (body, rest) := cut ['?', '>'] (cs.drop 2)
      followed (.instruction body) rest
    | .element =>
      let name := String.ofList (cs.tail.takeWhile isNameChar)
      let (attributes, rest) := pairs cs.length (cs.tail.dropWhile isNameChar)
      if rest.head? = some '/' then followed (.element name attributes []) (rest.drop 2)
      else
        let (children, rest) := items fuel rest.tail
        followed (.element name attributes children) (cut ['>'] rest).2

end Reader

variable {quote c : Char} {mark body text rest value name blanks : List Char} {fuel : Nat}
  {attributes : List (String × String)}

theorem EndsAt.tail (ends : EndsAt mark (c :: body)) : EndsAt mark body :=
  fun infix_ => ends (infix_.trans (List.suffix_cons c _).isInfix)

/-- A mark does not begin at the head of a body that it ends. -/
theorem EndsAt.not_prefix (ends : EndsAt mark (c :: body)) (rest : List Char) :
    ¬mark <+: c :: (body ++ (mark ++ rest)) := by
  intro isPrefix
  apply ends
  have known : c :: body ++ mark.dropLast <+: c :: (body ++ (mark ++ rest)) := by
    rw [List.cons_append, List.prefix_cons_inj, List.prefix_append_right_inj]
    exact (List.dropLast_prefix mark).trans (List.prefix_append mark rest)
  refine (List.prefix_of_prefix_length_le isPrefix known ?_).isInfix
  simp only [List.length_append, List.length_cons, List.length_dropLast]
  omega

theorem endsAt_singleton (absent : c ∉ body) : EndsAt [c] body := by
  simpa [EndsAt, List.singleton_infix_iff] using absent

/-- Letters, digits and the number sign. -/
def isReferenceChar (c : Char) : Bool :=
  c.isDigit || ('a' ≤ c && c ≤ 'z') || ('A' ≤ c && c ≤ 'Z') || c = '#'

theorem isReferenceChar_of_isHexDigit (isDigit : Yaml.isHexDigit c = true) : isReferenceChar c = true := by
  simp only [Yaml.isHexDigit, Bool.or_eq_true, Bool.and_eq_true, decide_eq_true_eq] at isDigit
  simp only [isReferenceChar, Bool.or_eq_true, Bool.and_eq_true, decide_eq_true_eq]
  rcases isDigit with (isDigit | ⟨low, high⟩) | ⟨low, high⟩
  · exact .inl (.inl (.inl isDigit))
  · exact .inl (.inl (.inr ⟨low, Char.le_trans high (by decide)⟩))
  · exact .inl (.inr ⟨low, Char.le_trans high (by decide)⟩)

theorem Reference.all_isReferenceChar (reference : Reference body c) : body.all isReferenceChar = true := by
  cases reference with
  | entity listed =>
    have plain : entities.all (fun entry => entry.1.all isReferenceChar) = true := by decide
    exact List.all_eq_true.1 plain _ listed
  | decimal _ digits =>
    apply List.all_eq_true.2
    simp only [List.mem_cons, forall_eq_or_imp]
    refine ⟨by decide, fun d mem => ?_⟩
    simp [isReferenceChar, List.all_eq_true.1 digits d mem]
  | hexadecimal _ digits =>
    apply List.all_eq_true.2
    simp only [List.mem_cons, forall_eq_or_imp]
    exact ⟨by decide, by decide, fun d mem => isReferenceChar_of_isHexDigit (List.all_eq_true.1 digits d mem)⟩

theorem Reference.not_mem (reference : Reference body c) {d : Char} (other : isReferenceChar d = false) :
    d ∉ body := by
  intro mem
  rw [List.all_eq_true.1 reference.all_isReferenceChar d mem] at other
  cases other

namespace Reader

theorem cut_append (some : mark ≠ []) (ends : EndsAt mark body) (rest : List Char) :
    cut mark (body ++ (mark ++ rest)) = (body, rest) := by
  induction body with
  | nil =>
    obtain ⟨c, cs, rfl⟩ := List.exists_cons_of_ne_nil some
    simp [cut]
  | cons c body ih => rw [List.cons_append, cut, if_neg (ends.not_prefix rest), ih ends.tail]

theorem cut_singleton (absent : c ∉ body) (rest : List Char) : cut [c] (body ++ c :: rest) = (body, rest) :=
  cut_append (List.cons_ne_nil c []) (endsAt_singleton absent) rest

theorem cut_reference (reference : Reference body c) (rest : List Char) :
    cut [';'] (body ++ ';' :: rest) = (body, rest) :=
  cut_singleton (reference.not_mem (by decide)) rest

theorem refer_eq (reference : Reference body c) : refer body = c := by
  cases reference with
  | entity listed =>
    have found : ∀ entry ∈ entities, refer entry.1 = entry.2 := by decide
    exact found _ listed
  | decimal some digits code =>
    obtain ⟨d, rest, rfl⟩ := List.exists_cons_of_ne_nil some
    have isDigit : d ≠ 'x' := by
      rintro rfl
      exact absurd (List.all_eq_true.1 digits 'x' List.mem_cons_self) (by decide)
    rw [refer, code, Char.ofNat_toNat]
    simpa using isDigit
  | hexadecimal _ _ code => rw [refer, code, Char.ofNat_toNat]

theorem unquote_eq (isValue : Value quote text value) (enough : text.length < fuel) : unquote fuel text = value := by
  induction isValue generalizing fuel with
  | nil =>
    obtain ⟨fuel, rfl⟩ := Nat.exists_eq_succ_of_ne_zero (Nat.ne_zero_of_lt enough)
    rfl
  | char _ _ _ notReference _ ih =>
    obtain ⟨fuel, rfl⟩ := Nat.exists_eq_succ_of_ne_zero (Nat.ne_zero_of_lt enough)
    rw [unquote, if_neg notReference, ih (Nat.lt_of_succ_lt_succ enough)]
  | @reference body c text value reference _ ih =>
    obtain ⟨fuel, rfl⟩ := Nat.exists_eq_succ_of_ne_zero (Nat.ne_zero_of_lt enough)
    simp only [List.length_append, List.length_cons] at enough
    have shorter : text.length < fuel := by omega
    rw [List.cons_append, unquote, if_pos rfl, cut_reference reference]
    simp only [refer_eq reference, ih shorter]

end Reader

theorem quote_cases (isQuote : quote ∈ ['"', '\'']) : quote = '"' ∨ quote = '\'' := by
  simpa using isQuote

theorem Value.not_mem (isValue : Value quote text value) (isQuote : quote ∈ ['"', '\'']) : quote ∉ text := by
  have plain : quote ≠ '&' ∧ quote ≠ ';' ∧ isReferenceChar quote = false := by
    rcases quote_cases isQuote with rfl | rfl <;> decide
  obtain ⟨notAmpersand, notSemicolon, notName⟩ := plain
  induction isValue with
  | nil => exact List.not_mem_nil
  | char _ notQuote _ _ _ ih => simpa using ⟨notQuote.symm, ih⟩
  | reference reference _ ih => simp [notAmpersand, notSemicolon, ih, reference.not_mem notName]

theorem all_isNameChar (isName : isName name = true) : name.all isNameChar = true := by
  cases name with
  | nil => rfl
  | cons c cs =>
    rw [Xml.isName, Bool.and_eq_true] at isName
    rw [List.all_cons, isNameChar, isName.1, isName.2]
    rfl

theorem not_mem_name (isName : isName name = true) (other : isNameChar c = false) : c ∉ name := by
  intro mem
  rw [List.all_eq_true.1 (all_isNameChar isName) c mem] at other
  cases other

/-- A name is read up to the first character that cannot go on with it. -/
theorem span_name (isName : isName name = true) (boundary : ∀ c ∈ rest.head?, isNameChar c = false) :
    (name ++ rest).takeWhile isNameChar = name ∧ (name ++ rest).dropWhile isNameChar = rest :=
  Text.span_append (List.all_eq_true.1 (all_isNameChar isName)) boundary

theorem isNameStart_of_isSpace (isBlank : isSpace c = true) : isNameStart c = false := by
  simp only [isSpace, Bool.or_eq_true, decide_eq_true_eq] at isBlank
  rcases isBlank with ((rfl | rfl) | rfl) | rfl <;> decide

theorem isNameChar_of_isSpace (isBlank : isSpace c = true) : isNameChar c = false := by
  simp only [isSpace, Bool.or_eq_true, decide_eq_true_eq] at isBlank
  rcases isBlank with ((rfl | rfl) | rfl) | rfl <;> decide

/-- What follows blanks, if it is none itself, is found by leaving the blanks out. -/
theorem dropWhile_blanks (isBlank : blanks.all isSpace = true) (boundary : ∀ c ∈ rest.head?, isSpace c = false) :
    (blanks ++ rest).dropWhile isSpace = rest :=
  (Text.span_append (List.all_eq_true.1 isBlank) boundary).2

/-- Blanks do not go on with a name, and so what they stand in front of decides. -/
theorem not_isNameChar_head (isBlank : blanks.all isSpace = true) (boundary : isNameChar c = false)
    (rest : List Char) : ∀ d ∈ (blanks ++ c :: rest).head?, isNameChar d = false := by
  cases blanks with
  | nil => simpa using boundary
  | cons b blanks =>
    rw [List.all_cons, Bool.and_eq_true] at isBlank
    simpa using isNameChar_of_isSpace isBlank.1

theorem isNameStart_head (isName : isName name = true) : ∃ c cs, name = c :: cs ∧ isNameStart c = true := by
  cases name with
  | nil => cases isName
  | cons c cs =>
    rw [Xml.isName, Bool.and_eq_true] at isName
    exact ⟨c, cs, rfl, isName.1⟩

theorem isSpace_of_isNameStart (starts : isNameStart c = true) : isSpace c = false := by
  cases isBlank : isSpace c with
  | false => rfl
  | true =>
    rw [isNameStart_of_isSpace isBlank] at starts
    cases starts

namespace Reader

theorem pairs_eq (isAttributes : Attributes text attributes) (isBlank : blanks.all isSpace = true)
    (boundary : ∀ c ∈ rest.head?, isSpace c = false ∧ isNameStart c = false) (enough : text.length < fuel) :
    pairs fuel (text ++ (blanks ++ rest)) = (attributes, rest) := by
  induction isAttributes generalizing fuel with
  | nil =>
    obtain ⟨fuel, rfl⟩ := Nat.exists_eq_succ_of_ne_zero (Nat.ne_zero_of_lt enough)
    rw [List.nil_append, pairs, dropWhile_blanks isBlank fun c mem => (boundary c mem).1]
    have noName : rest.head?.any isNameStart = false := by
      cases rest with
      | nil => rfl
      | cons c rest => exact (boundary c rfl).2
    simp [noName]
  | @cons spaces name before behind quote text value more attributes some isSpaces isName isBefore isBehind isQuote
      isValue _ ih =>
    obtain ⟨fuel, rfl⟩ := Nat.exists_eq_succ_of_ne_zero (Nat.ne_zero_of_lt enough)
    have shorter : more.length < fuel := by
      simp only [List.length_append, List.length_cons] at enough
      omega
    have quoted : isSpace quote = false := by
      rcases quote_cases isQuote with rfl | rfl <;> decide
    obtain ⟨c, cs, rfl, starts⟩ := isNameStart_head isName
    obtain ⟨taken, dropped⟩ := span_name isName (not_isNameChar_head isBefore (by decide : isNameChar '=' = false)
      (behind ++ quote :: (text ++ quote :: (more ++ (blanks ++ rest)))))
    simp only [List.append_assoc, List.cons_append] at taken dropped ⊢
    rw [pairs, dropWhile_blanks isSpaces (by simpa using isSpace_of_isNameStart starts)]
    simp only [List.head?_cons, Option.any_some, starts, if_true, taken, dropped]
    rw [dropWhile_blanks isBefore (by simp [isSpace]), List.tail_cons,
      dropWhile_blanks isBehind (by simpa using quoted)]
    simp only [List.headD_cons, List.tail_cons, cut_singleton (isValue.not_mem isQuote), ih shorter,
      unquote_eq isValue (Nat.lt_succ_self _)]

theorem kind_char (notTag : c ≠ '<') (notReference : c ≠ '&') (cs : List Char) : kind (c :: cs) = .char := by
  unfold kind
  split <;> simp_all

theorem kind_tag (isName : isName name = true) (cs : List Char) : kind ('<' :: (name ++ cs)) = .element := by
  obtain ⟨c, name, rfl, starts⟩ := isNameStart_head isName
  have notMark : c ≠ '/' ∧ c ≠ '!' ∧ c ≠ '?' := by
    refine ⟨?_, ?_, ?_⟩
    all_goals
      rintro rfl
      exact absurd starts (by decide)
  rw [List.cons_append]
  unfold kind
  split <;> simp_all

/-- The attributes of a tag are read up to the bracket that closes it. -/
theorem pairs_tag (isName : isName name = true) (isAttributes : Attributes text attributes)
    (isBlank : blanks.all isSpace = true) (closes : c = '/' ∨ c = '>') (rest : List Char)
    (enough : text.length < fuel) :
    (name ++ (text ++ (blanks ++ c :: rest))).takeWhile isNameChar = name ∧
      pairs fuel ((name ++ (text ++ (blanks ++ c :: rest))).dropWhile isNameChar) = (attributes, c :: rest) := by
  have boundary : isSpace c = false ∧ isNameStart c = false ∧ isNameChar c = false := by
    rcases closes with rfl | rfl <;> decide
  have ends : ∀ d ∈ (text ++ (blanks ++ c :: rest)).head?, isNameChar d = false := by
    cases isAttributes with
    | nil => exact not_isNameChar_head isBlank boundary.2.2 rest
    | @cons spaces name before behind quote value _ more _ some isSpaces =>
      obtain ⟨b, spaces, rfl⟩ := List.exists_cons_of_ne_nil some
      rw [List.all_cons, Bool.and_eq_true] at isSpaces
      simpa using isNameChar_of_isSpace isSpaces.1
  obtain ⟨taken, dropped⟩ := span_name isName ends
  rw [dropped]
  exact ⟨taken, pairs_eq isAttributes isBlank (by simpa using ⟨boundary.1, boundary.2.1⟩) enough⟩

/-- An end tag is left out up to the bracket that closes it. -/
theorem cut_endTag (isName : isName name = true) (isBlank : blanks.all isSpace = true) (rest : List Char) :
    (cut ['>'] ('<' :: '/' :: (name ++ (blanks ++ '>' :: rest)))).2 = rest := by
  have absent : '>' ∉ '<' :: '/' :: (name ++ blanks) := by
    have notName : '>' ∉ name := not_mem_name isName (by decide)
    have notBlank : '>' ∉ blanks := by
      intro mem
      exact absurd (List.all_eq_true.1 isBlank '>' mem) (by decide)
    simp [notName, notBlank]
  have read := cut_singleton absent rest
  simp only [List.cons_append, List.append_assoc] at read
  rw [read]

theorem inside_lt (name inside rest : List Char) : inside.length < ('<' :: (name ++ (inside ++ rest))).length := by
  simp only [List.length_cons, List.length_append]
  omega

theorem items_eq {found : List Item} (content : Content text found) (rest : List Char) (stops : kind rest = .stop)
    (enough : text.length < fuel) : items fuel (text ++ rest) = (found, rest) := by
  -- Each rule has a clause of the reader to itself, which the first characters of its text select.
  induction content generalizing fuel rest with
  | nil =>
    obtain ⟨fuel, rfl⟩ := Nat.exists_eq_succ_of_ne_zero (Nat.ne_zero_of_lt enough)
    simp [items, stops]
  | char _ notTag notReference _ _ ih =>
    obtain ⟨fuel, rfl⟩ := Nat.exists_eq_succ_of_ne_zero (Nat.ne_zero_of_lt enough)
    rw [List.cons_append, items, kind_char notTag notReference]
    simp [ih rest stops (Nat.lt_of_succ_lt_succ enough)]
  | @reference body c text found reference _ ih =>
    obtain ⟨fuel, rfl⟩ := Nat.exists_eq_succ_of_ne_zero (Nat.ne_zero_of_lt enough)
    have shorter : text.length < fuel := by
      simp only [List.length_append, List.length_cons] at enough
      omega
    simp [items, kind, cut_reference reference, refer_eq reference, ih rest stops shorter]
  | @comment body text found _ ends _ ih =>
    obtain ⟨fuel, rfl⟩ := Nat.exists_eq_succ_of_ne_zero (Nat.ne_zero_of_lt enough)
    have shorter : text.length < fuel := by
      simp only [List.length_append, List.length_cons] at enough
      omega
    have read := cut_append (List.cons_ne_nil _ _) ends ('>' :: (text ++ rest))
    simp only [List.cons_append, List.nil_append] at read
    simp [items, kind, read, ih rest stops shorter]
  | @raw body text found _ ends _ ih =>
    obtain ⟨fuel, rfl⟩ := Nat.exists_eq_succ_of_ne_zero (Nat.ne_zero_of_lt enough)
    have shorter : text.length < fuel := by
      simp only [List.length_append, List.length_cons] at enough
      omega
    have read := cut_append (List.cons_ne_nil _ _) ends (text ++ rest)
    simp only [List.cons_append, List.nil_append] at read
    simp [items, kind, read, ih rest stops shorter]
  | @instruction target body text found _ _ _ _ ends _ ih =>
    obtain ⟨fuel, rfl⟩ := Nat.exists_eq_succ_of_ne_zero (Nat.ne_zero_of_lt enough)
    have shorter : text.length < fuel := by
      simp only [List.length_append, List.length_cons] at enough
      omega
    have read := cut_append (List.cons_ne_nil _ _) ends (text ++ rest)
    simp only [List.cons_append, List.nil_append, List.append_assoc] at read
    simp [items, kind, read, ih rest stops shorter]
  | @empty name inside attributes blanks text found isName isAttributes _ isBlank _ ih =>
    obtain ⟨fuel, rfl⟩ := Nat.exists_eq_succ_of_ne_zero (Nat.ne_zero_of_lt enough)
    have shorter : text.length < fuel := by
      simp only [List.length_append, List.length_cons] at enough
      omega
    simp only [List.append_assoc, List.cons_append]
    rw [items, kind_tag isName]
    simp only [List.tail_cons]
    obtain ⟨taken, read⟩ := pairs_tag isName isAttributes isBlank (.inl rfl) ('>' :: (text ++ rest))
      (inside_lt name inside (blanks ++ '/' :: '>' :: (text ++ rest)))
    simp only [taken, read, List.head?_cons, if_true, List.drop_succ_cons, List.drop_zero, ih rest stops shorter]
  | @element name inside attributes blanks content children spaces text found isName isAttributes _ isBlank _ isSpaces
      _ inner ih =>
    obtain ⟨fuel, rfl⟩ := Nat.exists_eq_succ_of_ne_zero (Nat.ne_zero_of_lt enough)
    have shorter : content.length < fuel ∧ text.length < fuel := by
      simp only [List.length_append, List.length_cons] at enough
      omega
    simp only [List.append_assoc, List.cons_append]
    rw [items, kind_tag isName]
    simp only [List.tail_cons]
    obtain ⟨behind, isBehind⟩ :
        ∃ behind, behind = '<' :: '/' :: (name ++ (spaces ++ '>' :: (text ++ rest))) := ⟨_, rfl⟩
    rw [← isBehind]
    obtain ⟨taken, read⟩ := pairs_tag isName isAttributes isBlank (.inr rfl) (content ++ behind)
      (inside_lt name inside (blanks ++ '>' :: (content ++ behind)))
    have within := inner behind (by rw [isBehind, kind]) shorter.1
    have ends : (cut ['>'] behind).2 = text ++ rest := by
      rw [isBehind]
      exact cut_endTag isName isSpaces (text ++ rest)
    have notEmpty : ('>' :: (content ++ behind)).head? ≠ some '/' := by simp
    simp only [taken, read, if_neg notEmpty, List.tail_cons, within, ends, ih rest stops shorter.2]

end Reader

theorem Content.unique {found other : List Item} (content : Content text found) (again : Content text other) :
    found = other := by
  have read := Reader.items_eq content [] rfl (Nat.lt_succ_self _)
  rw [Reader.items_eq again [] rfl (Nat.lt_succ_self _)] at read
  exact (congrArg Prod.fst read).symm

end Flowchart.Xml
