import Flowchart.Text.Quoted

/-!
What can be wrong with a YAML text.
-/
namespace Flowchart.Yaml

/-- Why a text has no value. Nearly everything counts as malformed; the other faults are those of
scalars whose form promises a number, a truth value or a date that they do not hold. -/
inductive Fault where
  | malformed
  | badInteger (base : Nat) (digits : String)
  | longInteger (digits : Nat)
  | badFloat (text : String)
  | hugePower
  | emptyNumeral
  | badTruth (word : String)
  | badDate (reason : String)
  | noDate
  | dateInMapping
  | badCodePoint (code : Nat)
  deriving DecidableEq, Repr

namespace Fault

def message : Fault → String
  | malformed => "the text is no YAML"
  | badInteger base digits =>
    let shown := Text.quoted digits
    s!"invalid literal for int() with base {base}: {shown}"
  | longInteger digits =>
    String.join
      ["Exceeds the limit (4300 digits) for integer string conversion: value has ", toString digits,
        " digits; use sys.set_int_max_str_digits() to increase the limit"]
  | badFloat text =>
    let shown := Text.quoted text
    s!"could not convert string to float: {shown}"
  | hugePower => "int too large to convert to float"
  | emptyNumeral => "string index out of range"
  | badTruth word => Text.quoted word
  | badDate reason => reason
  | noDate => "'NoneType' object has no attribute 'groupdict'"
  | dateInMapping => "expected string or bytes-like object, got 'list'"
  | badCodePoint code =>
    if code < 0x80000000 then "chr() arg not in range(0x110000)"
    else "Python int too large to convert to C int"

end Fault
end Flowchart.Yaml
