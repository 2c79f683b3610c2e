/-!
Element trees and their text. An element without content is written as a single tag. In text the
characters of markup are replaced by entities, and in attributes also the double quote and the
characters that a reader would turn into spaces.
-/
namespace Flowchart.Xml

/-- An element: its name, its attributes in order, the text at its head, and the elements behind it. -/
inductive Element where
  | mk (name : String) (attributes : List (String × String)) (text : String) (children : List Element)
  deriving Repr, Inhabited

namespace Element

def node (name : String) (attributes : List (String × String)) (children : List Element) : Element :=
  mk name attributes "" children

def leaf (name : String) (attributes : List (String × String)) (text : String) : Element :=
  mk name attributes text []

end Element

def textChar (c : Char) : List Char :=
  match c with
  | '&' => ['&', 'a', 'm', 'p', ';']
  | '<' => ['&', 'l', 't', ';']
  | '>' => ['&', 'g', 't', ';']
  | c => [c]

/-- How a character stands in an attribute. -/
def attributeChar (c : Char) : List Char :=
  match c with
  | '"' => ['&', 'q', 'u', 'o', 't', ';']
  | '\r' => ['&', '#', '1', '3', ';']
  | '\n' => ['&', '#', '1', '0', ';']
  | '\t' => ['&', '#', '0', '9', ';']
  | c => textChar c

/-- The characters of an attribute, with a space in front. -/
def attributeChars (pair : String × String) : List Char :=
  ' ' :: pair.1.toList ++ '=' :: '"' :: pair.2.toList.flatMap attributeChar ++ ['"']

namespace Element

def chars : Element → List Char
  | mk name attributes text children =>
    let opening := '<' :: name.toList ++ attributes.flatMap attributeChars
    if text = "" && children.isEmpty then opening ++ [' ', '/', '>']
    else
      opening ++ '>' :: text.toList.flatMap textChar ++ charsOfList children ++
        '<' :: '/' :: name.toList ++ ['>']
where
  charsOfList : List Element → List Char
    | [] => []
    | child :: rest => child.chars ++ charsOfList rest

def render (element : Element) : String :=
  String.ofList element.chars

end Element
end Flowchart.Xml
