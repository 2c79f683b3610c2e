import Flowchart.Text.CodePoint

/-!
Plain data: what a configuration file says before it is checked. Mappings keep the order of their
entries, and no two entries have equal keys.
-/
namespace Flowchart

/-- A value of plain data. Of some values only their text in reports is kept, or nothing but that they
are collections of a kind of their own. -/
inductive Data where
  | null
  | bool (value : Bool)
  | int (value : Int)
  | float (value : Float)
  | text (value : String)
  /-- Text that surrogates stand in. -/
  | torn (value : List Text.CodePoint)
  | bytes (value : List UInt8)
  | other (shown : String)
  | collection
  | list (items : List Data)
  | mapping (entries : List (Data × Data))
  deriving Inhabited

namespace Data

/-- The value of a key that is text. -/
def get? (key : String) (entries : List (Data × Data)) : Option Data :=
  entries.findSome? fun (name, value) =>
    match name with
    | .text name => if name = key then some value else none
    | _ => none

end Data
end Flowchart
