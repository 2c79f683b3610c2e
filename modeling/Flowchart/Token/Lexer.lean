import Flowchart.Failure
import Flowchart.Token.Lexeme

/-!
From a source to its tokens: blanks and comments are passed over, lexemes are read one after another,
and the end of the source makes the last token.
-/
namespace Flowchart

/-- A fault and the place where it was found. -/
structure LexError where
  fault : LexFault
  position : Position
  deriving DecidableEq, Repr

namespace LexError

def failure (error : LexError) : Failure :=
  ⟨.lex, error.fault.message, some error.position, []⟩

end LexError

namespace Token

/-- Splits off spaces, tabs, carriage returns and comments. A comment starts at a double percent sign
and ends in front of the next line feed; the flag tells that one is open. -/
def splitBlanks (inComment : Bool) : List Char → List Char × List Char
  | [] => ([], [])
  | c :: cs =>
    let opens := c = '%' && cs.head? = some '%'
    if (if inComment then c ≠ '\n' else c = ' ' || c = '\t' || c = '\r' || opens) then
      let (blanks, rest) := splitBlanks (inComment || opens) cs
      (c :: blanks, rest)
    else ([], c :: cs)

theorem splitBlanks_append (inComment : Bool) (cs : List Char) :
    (splitBlanks inComment cs).1 ++ (splitBlanks inComment cs).2 = cs := by
  fun_induction splitBlanks inComment cs with
  | case1 => rfl
  | case2 inComment c cs opens skipped blanks rest eq ih => simpa [eq] using ih
  | case3 => rfl

/-- The tokens of a text that starts at a given place of the source. -/
def scanFrom (at_ : Position) (cs : List Char) : Except LexError (List Token) :=
  let split := splitBlanks false cs
  let start := at_.advance split.1
  match _inside : split.2 with
  | [] => .ok [⟨.endOfInput, "", start⟩]
  | c :: rest =>
    match _read : Lexeme.read c rest with
    | .error (fault, before) => .error ⟨fault, start.advance before⟩
    | .ok (lexeme, behind) => do
      let more ← scanFrom (start.advance lexeme.chars) behind
      return lexeme.tokens start ++ more
termination_by cs.length
decreasing_by
  have shorter := Lexeme.length_lt_of_read _read
  have whole := congrArg List.length (splitBlanks_append false cs)
  have tail : (splitBlanks false cs).2.length = rest.length + 1 := by
    rw [show (splitBlanks false cs).2 = c :: rest from _inside, List.length_cons]
  simp only [List.length_append] at whole
  omega

/-- The tokens of a source, the last of which is its end. -/
def scan (source : String) : Except LexError (List Token) :=
  scanFrom .start source.toList

end Token
end Flowchart
