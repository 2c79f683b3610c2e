/-!
Code points of texts that may name surrogates. Most texts are made of characters alone.
-/
namespace Flowchart.Text

/-- A character, or a surrogate, which stands for nothing by itself and which no encoding of texts has. -/
inductive CodePoint where
  | char (c : Char)
  | surrogate (code : Nat)
  deriving DecidableEq, Repr

namespace CodePoint

/-- The code point of a number below 0x110000. -/
def ofNat (code : Nat) : CodePoint :=
  if 0xD800 ≤ code && code ≤ 0xDFFF then .surrogate code else .char (Char.ofNat code)

def char? : CodePoint → Option Char
  | char c => some c
  | surrogate _ => none

/-- The character that is shown for a code point; a surrogate is replaced. -/
def shown : CodePoint → Char
  | char c => c
  | surrogate _ => '\uFFFD'

@[simp] theorem ofNat_toNat (c : Char) : ofNat c.toNat = .char c := by
  have noSurrogate : ¬ (0xD800 ≤ c.toNat ∧ c.toNat ≤ 0xDFFF) := by
    have valid : c.toNat < 0xD800 ∨ 0xDFFF < c.toNat ∧ c.toNat < 0x110000 := c.valid
    omega
  simp [ofNat, noSurrogate]

end CodePoint

def codePoints (cs : List Char) : List CodePoint :=
  cs.map .char

/-- The characters of a text, if there is no surrogate in it. -/
def characters? (text : List CodePoint) : Option (List Char) :=
  text.mapM CodePoint.char?

/-- A text with a replacement for every surrogate. -/
def shown (text : List CodePoint) : String :=
  String.ofList (text.map CodePoint.shown)

@[simp] theorem characters?_codePoints (cs : List Char) : characters? (codePoints cs) = some cs := by
  induction cs with
  | nil => rfl
  | cons c cs ih =>
    simp only [characters?, codePoints] at ih
    simp [characters?, codePoints, CodePoint.char?, ih]

@[simp] theorem shown_codePoints (cs : List Char) : shown (codePoints cs) = String.ofList cs := by
  have shownBack : (codePoints cs).map CodePoint.shown = cs := by
    rw [codePoints, List.map_map]
    exact List.map_id cs
  rw [shown, shownBack]

@[simp] theorem codePoints_append (cs more : List Char) : codePoints (cs ++ more) = codePoints cs ++ codePoints more :=
  List.map_append

end Flowchart.Text
