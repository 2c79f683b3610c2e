import Flowchart.Settings

/-!
Text that may be drawn. In strict mode everything between a less-than sign and the next greater-than
sign goes, the signs included.
-/
namespace Flowchart.Svg

/-- What follows the first greater-than sign, if there is one. -/
def behindTag? : List Char → Option (List Char)
  | [] => none
  | c :: cs => if c = '>' then some cs else behindTag? cs

theorem length_lt_of_behindTag? {cs rest : List Char} (h : behindTag? cs = some rest) :
    rest.length < cs.length := by
  fun_induction behindTag? cs with
  | case1 => cases h
  | case2 cs => cases h; simp
  | case3 c cs _ ih => exact Nat.lt_succ_of_lt (ih h)

/-- The characters outside tags. A less-than sign that no greater-than sign follows opens no tag. -/
def dropTags : List Char → List Char
  | [] => []
  | c :: cs =>
    if c = '<' then
      match _behind : behindTag? cs with
      | some rest => dropTags rest
      | none => c :: cs
    else c :: dropTags cs
termination_by cs => cs.length
decreasing_by
  · have := length_lt_of_behindTag? _behind
    simp only [List.length_cons]
    omega
  · simp

/-- The text that is drawn for a label. -/
def sanitize (security : Security) (label : String) : String :=
  match security with
  | .strict => String.ofList (dropTags label.toList)
  | .loose => label

end Flowchart.Svg
