import Flowchart.Position
import Flowchart.Text.Quoted

/-!
Tokens of the diagram language: the words and marks of a source, each with its text and its place.
-/
namespace Flowchart

/-- What a token is to the grammar. -/
inductive Token.Kind where
  | graph | flowchart | subgraph | close
  | arrow | linkStart
  | openBracket | closeBracket | pipe | label
  | identifier
  | newline
  | endOfInput
  deriving DecidableEq, Repr, Inhabited

/-- A word or mark of a source. -/
structure Token where
  kind : Token.Kind
  text : String
  position : Position
  deriving DecidableEq, Repr, Inhabited

namespace Token

/-- The words that may not serve as identifiers. -/
def keywords : List (String × Kind) :=
  [("graph", .graph), ("flowchart", .flowchart), ("subgraph", .subgraph), ("end", .close)]

/-- What a word is: a keyword or an identifier. -/
def kindOfWord (word : String) : Kind :=
  (keywords.lookup word).getD .identifier

/-- The place just behind a token, which lies on the line that the token starts on. -/
def stop (token : Token) : Position :=
  let length : Int := token.text.length
  ⟨token.position.line, token.position.column + length, token.position.offset + length⟩

def describe (token : Token) : String :=
  match token.kind with
  | .endOfInput => "end of input"
  | .newline => if token.text = "\n" then "end of line" else "';'"
  | _ => Text.quoted token.text

end Token
end Flowchart
