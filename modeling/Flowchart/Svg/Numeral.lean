import Flowchart.Number.FixedPoint
import Flowchart.Scene

/-!
Numbers of a drawing: two decimal places, without the zeros at the end of the fraction and without a
point that nothing follows.
-/
namespace Flowchart.Svg

/-- The text without a given character at its end, however often it stands there. -/
def dropLast (c : Char) (cs : List Char) : List Char :=
  (cs.reverse.dropWhile (· = c)).reverse

def numeralChars (x : Float) : List Char :=
  dropLast '.' (dropLast '0' (Number.fixedChars 2 x))

def numeral (x : Float) : String :=
  String.ofList (numeralChars x)

def pointList (points : List (Point Float)) : String :=
  " ".intercalate (points.map fun p => numeral p.x ++ "," ++ numeral p.y)

end Flowchart.Svg
