/-!
Names of files. Doubled slashes and points that stand for nothing are left out; two points stay, for they
may lead through a link.
-/
namespace Flowchart

/-- The steps from a root, or from the working directory if there is none. -/
structure Path where
  root : String := ""
  parts : List String := []
  deriving DecidableEq, Repr, Inhabited

namespace Path

/-- The root that a text names: exactly two slashes are a root of their own. -/
def rootOf (text : String) : String :=
  match text.toList.takeWhile (· = '/') with
  | [] => ""
  | ['/', '/'] => "//"
  | _ => "/"

def ofText (text : String) : Path :=
  ⟨rootOf text, ((text.toList.splitOn '/').map String.ofList).filter fun part => part ≠ "" && part ≠ "."⟩

/-- The text of a path; the working directory is a point. -/
def text (path : Path) : String :=
  if path.root = "" && path.parts.isEmpty then "."
  else path.root ++ "/".intercalate path.parts

instance : ToString Path := ⟨text⟩

def name (path : Path) : String :=
  path.parts.getLast?.getD ""

def parent (path : Path) : Path :=
  { path with parts := path.parts.dropLast }

/-- A path behind another one; a root starts anew. -/
def join (path next : Path) : Path :=
  if next.root = "" then { path with parts := path.parts ++ next.parts } else next

def child (path : Path) (name : String) : Path :=
  { path with parts := path.parts ++ [name] }

end Path
end Flowchart
