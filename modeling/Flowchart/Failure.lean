import Flowchart.Position

/-!
Failures of a rendering run: the stage that found the fault, what is wrong, and where.
-/
namespace Flowchart

/-- The stages a source passes on its way to a picture. -/
inductive Stage where
  | lex | parse | validate | layout | render
  deriving DecidableEq, Repr, Inhabited

namespace Stage

/-- The name of a stage in lower case. -/
def name : Stage → String
  | lex => "lex"
  | parse => "parse"
  | validate => "validate"
  | layout => "layout"
  | render => "render"

/-- The name of a stage at the head of a message. -/
def title : Stage → String
  | lex => "Lex"
  | parse => "Parse"
  | validate => "Validate"
  | layout => "Layout"
  | render => "Render"

end Stage

/-- Why a rendering run stopped. `related` lists every place that the message cites, when it cites
several. -/
structure Failure where
  stage : Stage
  message : String
  position : Option Position := none
  related : List Position := []
  deriving DecidableEq, Repr, Inhabited

namespace Failure

/-- The message under the heading of its stage, as it is shown to the user. -/
def describe (failure : Failure) : String :=
  match failure.position with
  | none => s!"{failure.stage.title} error: {failure.message}"
  | some at_ =>
    s!"{failure.stage.title} error on line {at_.line}, column {at_.column}: {failure.message}"

/-- The message after its place, without the stage. -/
def located (failure : Failure) : String :=
  match failure.position with
  | none => failure.message
  | some at_ => s!"Line {at_.line}, column {at_.column}: {failure.message}"

end Failure
end Flowchart
