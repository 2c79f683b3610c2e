import Flowchart.Diff.Row
import Flowchart.Failure
import Flowchart.Text.Blank

/-!
Repairs of a source that cannot be rendered, suggested by a language model. A suggestion is shown beside
the source and never put in its place here.
-/
namespace Flowchart

/-- A replacement for a source, waiting to be accepted. -/
structure Suggestion where
  source : String
  text : String
  rows : List Diff.Row
  deriving DecidableEq, Repr

namespace Suggestion

/-- The replacement of a source by a text, line beside line. -/
def ofTexts (source text : String) : Suggestion :=
  ⟨source, text, Diff.Row.ofTexts source text⟩

def changed (suggestion : Suggestion) : Bool :=
  suggestion.source != suggestion.text

end Suggestion

namespace Repair

/-- What the model is told to do. -/
def instructions : String :=
  "\n".intercalate
    [String.join
        ["You are an expert in flowchart diagram syntax. ",
          "Your task is to fix the provided syntax error."],
      "Follow these rules:",
      "1. Fix only the syntax errors.",
      "2. Maintain the original logic of the diagram.",
      "3. Return ONLY the raw diagram code.",
      "4. Do NOT include markdown code blocks.",
      "5. Do NOT include any explanations or conversational text."]

/-- The question about a source and the message of its error. -/
def prompt (source message : String) : String :=
  String.join
    ["Broken diagram code:\n", source, "\n\nError message:\n", message,
      "\n\nPlease fix the syntax error. Return ONLY the raw code.\n"]

/-- A letter of the ASCII alphabet, as the names of languages have them behind a fence. -/
def isLetter (c : Char) : Bool :=
  ('a' ≤ c && c ≤ 'z') || ('A' ≤ c && c ≤ 'Z')

/-- A text without its fences: three backticks and the letters behind them. `inName` tells that the last
character belonged to a fence. -/
def dropFences (inName : Bool) : List Char → List Char
  | '\x60' :: '\x60' :: '\x60' :: rest => dropFences true rest
  | c :: rest => if inName && isLetter c then dropFences true rest else c :: dropFences false rest
  | [] => []

def clean (answer : String) : String :=
  String.ofList (Text.trimChars (dropFences false answer.toList))

/-- What a service is asked for. -/
structure Request where
  key : String
  model : String
  temperature : Float
  instructions : String
  prompt : String
  deriving Repr

/-- A service that answers requests: with a text, with nothing, or with the reason of a failure. -/
class Service (m : Type → Type) where
  ask : Request → m (Except String (Option String))

/-- Whom to ask, and on whose account. -/
structure Account where
  key : String
  model : String := "gemini-3-flash-preview"
  temperature : Float := 0.2
  deriving Repr

/-- Why there is no suggestion. -/
inductive Error where
  | noKey
  | failed (reason : String)
  | noAnswer
  deriving DecidableEq, Repr

namespace Error

def message : Error → String
  | noKey => "api_key is required"
  | failed reason => s!"Failed to fix code with AI: {reason}"
  | noAnswer => "AI returned an empty response."

end Error

/-- The request about a source and the message of its error. -/
def Account.request (account : Account) (source message : String) : Request :=
  ⟨account.key, account.model, account.temperature, instructions, prompt source message⟩

def ofAnswer (answer : Except String (Option String)) : Except Error String :=
  match answer with
  | .error reason => .error (.failed reason)
  | .ok answer =>
    let text := clean (answer.getD "")
    if text = "" then .error .noAnswer else .ok text

def correct {m : Type → Type} [Monad m] [Service m] (account : Account) (source message : String) :
    m (Except Error String) := do
  if account.key = "" then return .error .noKey
  return ofAnswer (← Service.ask (account.request source message))

/-- Asks a corrector about a failed source; it is told the failure as the user sees it. -/
def suggest {ε : Type} {m : Type → Type} [Monad m] (corrector : String → String → m (Except ε String))
    (source : String) (failure : Failure) : m (Except ε Suggestion) := do
  return (← corrector source failure.describe).map (Suggestion.ofTexts source)

end Repair
end Flowchart
