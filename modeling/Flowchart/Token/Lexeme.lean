import Flowchart.Shape
import Flowchart.Token
import Flowchart.Text.Alphanumeric
import Flowchart.Text.Blank
import Flowchart.Text.Split

/-!
Lexemes: the pieces that a source falls into between its blanks. A lexeme holds every character it was
read from, so reading one loses nothing (`eq_append_of_read`), and it yields one token or the three
tokens of a label with its delimiters.
-/
namespace Flowchart

/-- A piece of source that stands for itself. -/
inductive Lexeme where
  /-- A line feed or a semicolon. -/
  | terminator (c : Char)
  /-- A keyword or an identifier. -/
  | word (cs : List Char)
  /-- A link without an inner label. -/
  | arrow (style : EdgeStyle) (head : Bool)
  /-- A link around its label. -/
  | inlineLabel (style : EdgeStyle) (inner : List Char) (head : Bool)
  /-- A label between bars. -/
  | pipeLabel (inner : List Char)
  /-- A label between the brackets of a shape; `lead` holds the spaces and tabs behind the opener. -/
  | bareLabel (shape : Shape) (lead inner : List Char)
  /-- A label between double quotes between the brackets of a shape. -/
  | quotedLabel (shape : Shape) (lead inner trail : List Char)
  deriving DecidableEq, Repr

/-- Why no lexeme can be read. -/
inductive LexFault where
  | unexpected (c : Char)
  | unclosedInlineLabel (style : EdgeStyle)
  | unclosedPipeLabel
  | unclosedLabel (shape : Shape)
  | unclosedQuote
  | afterQuote (shape : Shape) (found : Char)
  deriving DecidableEq, Repr

namespace LexFault

def message : LexFault → String
  | unexpected c => s!"Unexpected character: {Text.quoted (String.singleton c)}"
  | unclosedInlineLabel style =>
    let arrowed := Text.quoted (String.ofList (style.closer true))
    let plain := Text.quoted (String.ofList (style.closer false))
    let opener := Text.quoted (String.ofList style.opener)
    s!"Unterminated edge label: expected {arrowed} or {plain} after {opener}"
  | unclosedPipeLabel => "Unterminated edge label: missing closing '|'"
  | unclosedLabel shape =>
    s!"Unterminated label: missing closing {Text.quoted (String.ofList shape.closer)}"
  | unclosedQuote => "Unterminated quoted label"
  | afterQuote shape found =>
    let closer := Text.quoted (String.ofList shape.closer)
    s!"Expected {closer} after quoted label, got {Text.quoted (String.singleton found)}"

end LexFault

/-- A text inside double quotes without them; any other text as it is. -/
def unquote (cs : List Char) : List Char :=
  match cs with
  | '"' :: rest => if rest.getLast? = some '"' then rest.dropLast else cs
  | _ => cs

namespace Lexeme

/-- The characters that a lexeme was read from. -/
def chars : Lexeme → List Char
  | terminator c => [c]
  | word cs => cs
  | arrow style head => style.arrow head
  | inlineLabel style inner head => style.opener ++ inner ++ style.closer head
  | pipeLabel inner => '|' :: inner ++ ['|']
  | bareLabel shape lead inner => shape.opener ++ lead ++ inner ++ shape.closer
  | quotedLabel shape lead inner trail =>
    shape.opener ++ lead ++ '"' :: inner ++ '"' :: trail ++ shape.closer

/-- The tokens of a lexeme that starts at a given place. -/
def tokens (lexeme : Lexeme) (at_ : Position) : List Token :=
  match lexeme with
  | terminator c => [⟨.newline, String.singleton c, at_⟩]
  | word cs => [⟨Token.kindOfWord (String.ofList cs), String.ofList cs, at_⟩]
  | arrow style head => [⟨.arrow, String.ofList (style.arrow head), at_⟩]
  | inlineLabel style inner head =>
    let labelAt := at_.advance style.opener
    [⟨.linkStart, String.ofList style.opener, at_⟩,
      ⟨.label, String.ofList (Text.trimChars inner), labelAt⟩,
      ⟨.arrow, String.ofList (style.closer head), labelAt.advance inner⟩]
  | pipeLabel inner =>
    let labelAt := at_.step '|'
    [⟨.pipe, "|", at_⟩,
      ⟨.label, String.ofList (unquote (Text.trimChars inner)), labelAt⟩,
      ⟨.pipe, "|", labelAt.advance inner⟩]
  | bareLabel shape lead inner =>
    let labelAt := at_.advance (shape.opener ++ lead)
    [⟨.openBracket, String.ofList shape.opener, at_⟩,
      ⟨.label, String.ofList (Text.trimChars inner), labelAt⟩,
      ⟨.closeBracket, String.ofList shape.closer, labelAt.advance inner⟩]
  | quotedLabel shape lead inner trail =>
    let labelAt := at_.advance (shape.opener ++ lead)
    [⟨.openBracket, String.ofList shape.opener, at_⟩,
      ⟨.label, String.ofList inner, labelAt⟩,
      ⟨.closeBracket, String.ofList shape.closer, labelAt.advance ('"' :: inner ++ '"' :: trail)⟩]

def isSpace (c : Char) : Bool :=
  c = ' ' || c = '\t'

def isWordChar (c : Char) : Bool :=
  Text.isAlphanumeric c || c = '_'

/-- A fault together with what was read in front of it. -/
abbrev Fault := LexFault × List Char

/-- The close of a link around its label, at the head of a text. -/
def readCloser? (style : EdgeStyle) (cs : List Char) : Option (Bool × List Char) :=
  [true, false].findSome? fun head =>
    (Text.stripPrefix? (style.closer head) cs).map fun rest => (head, rest)

/-- A link without an inner label, at the head of a text. -/
def readArrow? (cs : List Char) : Option (Lexeme × List Char) :=
  EdgeStyle.arrows.findSome? fun (style, head) =>
    (Text.stripPrefix? (style.arrow head) cs).map fun rest => (arrow style head, rest)

/-- What opens a link around its label, at the head of a text. -/
def readLinkStart? (cs : List Char) : Option (EdgeStyle × List Char) :=
  EdgeStyle.all.findSome? fun style =>
    (Text.stripPrefix? style.opener cs).map fun rest => (style, rest)

/-- The bracket that opens a label, at the head of a text. -/
def readBracket? (cs : List Char) : Option (Shape × List Char) :=
  Shape.all.findSome? fun shape =>
    (Text.stripPrefix? shape.opener cs).map fun rest => (shape, rest)

/-- The rest of a link around its label, which closes on its own line. -/
def readInlineLabel (style : EdgeStyle) (cs : List Char) : Except Fault (Lexeme × List Char) :=
  match Text.scanTo? (readCloser? style) (· = '\n') cs with
  | some (inner, head, rest) => .ok (inlineLabel style inner head, rest)
  | none => .error (.unclosedInlineLabel style, [])

/-- The rest of a label between bars, which closes on its own line. -/
def readPipeLabel (cs : List Char) : Except Fault (Lexeme × List Char) :=
  match Text.scanTo? (fun tail => (Text.stripPrefix? ['|'] tail).map fun rest => ((), rest))
      (· = '\n') cs with
  | some (inner, _, rest) => .ok (pipeLabel inner, rest)
  | none => .error (.unclosedPipeLabel, [])

/-- The rest of a quoted label, which closes on its own line, and of its brackets. -/
def readQuoted (shape : Shape) (lead cs : List Char) : Except Fault (Lexeme × List Char) :=
  match Text.scanTo? (fun tail => (Text.stripPrefix? ['"'] tail).map fun rest => ((), rest))
      (· = '\n') cs with
  | none => .error (.unclosedQuote, shape.opener ++ lead)
  | some (inner, _, behind) =>
    let trail := behind.takeWhile isSpace
    let rest := behind.dropWhile isSpace
    match Text.stripPrefix? shape.closer rest with
    | some rest => .ok (quotedLabel shape lead inner trail, rest)
    | none =>
      match rest with
      | [] => .error (.unclosedLabel shape, [])
      | c :: _ => .error (.afterQuote shape c, shape.opener ++ lead ++ '"' :: inner ++ '"' :: trail)

/-- The rest of a label without quotes, which may run over several lines, and of its brackets. -/
def readBare (shape : Shape) (lead cs : List Char) : Except Fault (Lexeme × List Char) :=
  match Text.scanTo? (fun tail => (Text.stripPrefix? shape.closer tail).map fun rest => ((), rest))
      (fun _ => false) cs with
  | some (inner, _, rest) => .ok (bareLabel shape lead inner, rest)
  | none => .error (.unclosedLabel shape, [])

/-- The rest of a label behind the opening bracket of its shape. -/
def readLabel (shape : Shape) (cs : List Char) : Except Fault (Lexeme × List Char) :=
  let lead := cs.takeWhile isSpace
  match cs.dropWhile isSpace with
  | '"' :: rest => readQuoted shape lead rest
  | rest => readBare shape lead rest

/-- The first lexeme of a text that starts with neither a blank nor a comment. -/
def read (c : Char) (cs : List Char) : Except Fault (Lexeme × List Char) :=
  if c = '\n' || c = ';' then .ok (terminator c, cs)
  else if c = '|' then readPipeLabel cs
  else match readBracket? (c :: cs) with
    | some (shape, rest) => readLabel shape rest
    | none =>
      match readArrow? (c :: cs) with
      | some (lexeme, rest) => .ok (lexeme, rest)
      | none =>
        match readLinkStart? (c :: cs) with
        | some (style, rest) => readInlineLabel style rest
        | none =>
          if isWordChar c then
            .ok (word ((c :: cs).takeWhile isWordChar), (c :: cs).dropWhile isWordChar)
          else .error (.unexpected c, [])

theorem eq_append_of_readArrow? {cs rest : List Char} {lexeme : Lexeme}
    (h : readArrow? cs = some (lexeme, rest)) :
    cs = lexeme.chars ++ rest ∧ lexeme.chars ≠ [] := by
  obtain ⟨⟨style, head⟩, _, h⟩ := List.exists_of_findSome?_eq_some h
  simp only [Option.map_eq_some_iff, Prod.mk.injEq] at h
  obtain ⟨rest', eq, rfl, rfl⟩ := h
  exact ⟨Text.stripPrefix?_eq_some_iff.1 eq, EdgeStyle.arrow_ne_nil style head⟩

theorem eq_append_of_readCloser? {style : EdgeStyle} {cs rest : List Char} {head : Bool}
    (h : readCloser? style cs = some (head, rest)) : cs = style.closer head ++ rest := by
  obtain ⟨head', _, h⟩ := List.exists_of_findSome?_eq_some h
  simp only [Option.map_eq_some_iff, Prod.mk.injEq] at h
  obtain ⟨rest', eq, rfl, rfl⟩ := h
  exact Text.stripPrefix?_eq_some_iff.1 eq

theorem eq_append_of_readLinkStart? {style : EdgeStyle} {cs rest : List Char}
    (h : readLinkStart? cs = some (style, rest)) : cs = style.opener ++ rest := by
  obtain ⟨style', _, h⟩ := List.exists_of_findSome?_eq_some h
  simp only [Option.map_eq_some_iff, Prod.mk.injEq] at h
  obtain ⟨rest', eq, rfl, rfl⟩ := h
  exact Text.stripPrefix?_eq_some_iff.1 eq

theorem eq_append_of_readBracket? {shape : Shape} {cs rest : List Char}
    (h : readBracket? cs = some (shape, rest)) : cs = shape.opener ++ rest := by
  obtain ⟨shape', _, h⟩ := List.exists_of_findSome?_eq_some h
  simp only [Option.map_eq_some_iff, Prod.mk.injEq] at h
  obtain ⟨rest', eq, rfl, rfl⟩ := h
  exact Text.stripPrefix?_eq_some_iff.1 eq

theorem eq_append_of_readInlineLabel {style : EdgeStyle} {cs rest : List Char} {lexeme : Lexeme}
    (h : readInlineLabel style cs = .ok (lexeme, rest)) :
    style.opener ++ cs = lexeme.chars ++ rest ∧ lexeme.chars ≠ [] := by
  unfold readInlineLabel at h
  split at h
  · rename_i inner head rest' found
    cases h
    obtain ⟨tail, rfl, closes⟩ := Text.eq_append_of_scanTo? found
    have closed := eq_append_of_readCloser? closes
    exact ⟨by simp [chars, closed], by simp [chars, EdgeStyle.opener_ne_nil]⟩
  · cases h

theorem eq_append_of_readPipeLabel {cs rest : List Char} {lexeme : Lexeme}
    (h : readPipeLabel cs = .ok (lexeme, rest)) :
    '|' :: cs = lexeme.chars ++ rest ∧ lexeme.chars ≠ [] := by
  unfold readPipeLabel at h
  split at h
  · rename_i inner _ rest' found
    cases h
    obtain ⟨tail, rfl, closes⟩ := Text.eq_append_of_scanTo? found
    simp only [Option.map_eq_some_iff, Prod.mk.injEq] at closes
    obtain ⟨rest', eq, -, rfl⟩ := closes
    have closed := Text.stripPrefix?_eq_some_iff.1 eq
    exact ⟨by simp [chars, closed], by simp [chars]⟩
  · cases h

theorem eq_append_of_readQuoted {shape : Shape} {lead cs rest : List Char} {lexeme : Lexeme}
    (h : readQuoted shape lead cs = .ok (lexeme, rest)) :
    shape.opener ++ lead ++ '"' :: cs = lexeme.chars ++ rest ∧ lexeme.chars ≠ [] := by
  unfold readQuoted at h
  split at h
  · cases h
  · rename_i inner _ behind found
    obtain ⟨tail, rfl, closes⟩ := Text.eq_append_of_scanTo? found
    simp only [Option.map_eq_some_iff, Prod.mk.injEq] at closes
    obtain ⟨rest', eq, -, rfl⟩ := closes
    have closed := Text.stripPrefix?_eq_some_iff.1 eq
    simp only at h
    split at h
    · rename_i rest'' bracket
      cases h
      have behind := Text.stripPrefix?_eq_some_iff.1 bracket
      have whole := @List.takeWhile_append_dropWhile _ isSpace rest'
      refine ⟨?_, by simp [chars, Shape.opener_ne_nil]⟩
      rw [closed, chars]
      conv => lhs; rw [← whole, behind]
      simp
    · split at h <;> cases h

theorem eq_append_of_readBare {shape : Shape} {lead cs rest : List Char} {lexeme : Lexeme}
    (h : readBare shape lead cs = .ok (lexeme, rest)) :
    shape.opener ++ lead ++ cs = lexeme.chars ++ rest ∧ lexeme.chars ≠ [] := by
  unfold readBare at h
  split at h
  · rename_i inner _ rest' found
    cases h
    obtain ⟨tail, rfl, closes⟩ := Text.eq_append_of_scanTo? found
    simp only [Option.map_eq_some_iff, Prod.mk.injEq] at closes
    obtain ⟨rest', eq, -, rfl⟩ := closes
    have closed := Text.stripPrefix?_eq_some_iff.1 eq
    exact ⟨by simp [chars, closed], by simp [chars, Shape.opener_ne_nil]⟩
  · cases h

theorem eq_append_of_readLabel {shape : Shape} {cs rest : List Char} {lexeme : Lexeme}
    (h : readLabel shape cs = .ok (lexeme, rest)) :
    shape.opener ++ cs = lexeme.chars ++ rest ∧ lexeme.chars ≠ [] := by
  have whole := @List.takeWhile_append_dropWhile _ isSpace cs
  unfold readLabel at h
  simp only at h
  split at h
  · rename_i rest' eq
    have read := eq_append_of_readQuoted h
    rwa [List.append_assoc, ← eq, whole] at read
  · have read := eq_append_of_readBare h
    rwa [List.append_assoc, whole] at read

/-- A lexeme and what follows it are the text that it was read from, and it is not empty. -/
theorem eq_append_of_read {c : Char} {cs rest : List Char} {lexeme : Lexeme}
    (h : read c cs = .ok (lexeme, rest)) :
    c :: cs = lexeme.chars ++ rest ∧ lexeme.chars ≠ [] := by
  unfold read at h
  split at h
  · cases h; simp [chars]
  · split at h
    · rename_i bar
      subst bar
      exact eq_append_of_readPipeLabel h
    · split at h
      · rename_i shape rest' open_
        rw [eq_append_of_readBracket? open_]
        exact eq_append_of_readLabel h
      · split at h
        · rename_i arrow
          cases h
          exact eq_append_of_readArrow? arrow
        · split at h
          · rename_i style rest' open_
            rw [eq_append_of_readLinkStart? open_]
            exact eq_append_of_readInlineLabel h
          · split at h
            · rename_i word
              cases h
              exact ⟨List.takeWhile_append_dropWhile.symm, by simp [chars, word]⟩
            · cases h

theorem length_lt_of_read {c : Char} {cs rest : List Char} {lexeme : Lexeme}
    (h : read c cs = .ok (lexeme, rest)) : rest.length < cs.length + 1 := by
  obtain ⟨eq, nonempty⟩ := eq_append_of_read h
  have size := congrArg List.length eq
  have := List.length_pos_iff.2 nonempty
  simp only [List.length_cons, List.length_append] at size
  omega

end Lexeme
end Flowchart
