import Flowchart.Files.Path
import Flowchart.Text.Lines
import Flowchart.Text.Quoted

/-!
What programs do with files, whatever keeps them: each operation succeeds or tells why it failed. One that
fails leaves everything as it was, unless it is a write that was cut off.
-/
namespace Flowchart

/-- Why an operation on a file failed. -/
inductive FileError where
  | missing (path : Path)
  | alreadyExists (path : Path)
  | notDirectory (path : Path)
  | isDirectory (path : Path)
  | other (message : String)
  deriving DecidableEq, Repr, Inhabited

namespace FileError

/-- The number and the text of an error with the path that it concerns. -/
def numbered (number : Nat) (text : String) (path : Path) : String :=
  let shown := Text.quoted path.text
  s!"[Errno {number}] {text}: {shown}"

def message : FileError → String
  | missing path => numbered 2 "No such file or directory" path
  | alreadyExists path => numbered 17 "File exists" path
  | notDirectory path => numbered 20 "Not a directory" path
  | isDirectory path => numbered 21 "Is a directory" path
  | other message => message

end FileError

/-- Why a text could not be read from a file. -/
inductive ReadError where
  | file (error : FileError)
  | notText
  deriving DecidableEq, Repr, Inhabited

/-- Operations on files. -/
class Files (m : Type → Type) where
  /-- Whether there is anything at a path, if that can be told. -/
  isPresent : Path → m (Except FileError Bool)
  /-- Reads a text. -/
  readText : Path → m (Except ReadError String)
  /-- Replaces the content of a file, or creates it. The file is emptied first, so that a write which fails on its
  way leaves a beginning of the text in it. -/
  write : Path → String → m (Except FileError Unit)
  /-- Creates a directory and the ones that it lies in, as far as they are missing. -/
  createDirectories : Path → m (Except FileError Unit)
  setMode : Path → Nat → m (Except FileError Unit)
  /-- Removes a file; a missing one is no error. -/
  remove : Path → m (Except FileError Unit)

namespace Files

/-- The text that bytes encode, with every line end as a line feed. -/
def decode (bytes : ByteArray) : Except ReadError String :=
  match String.fromUTF8? bytes with
  | some text => .ok (String.ofList (Text.unifyNewlines text.toList))
  | none => .error .notText

end Files
end Flowchart
