import Flowchart.Abort

/-!
What a command says, how it ends, and how time passes for it.
-/
namespace Flowchart

/-- Colours of text on a terminal. -/
inductive Colour where
  | red | green | yellow
  deriving DecidableEq, Repr

namespace Colour

/-- The number that turns a colour on. -/
def number : Colour → Nat
  | red => 31
  | green => 32
  | yellow => 33

/-- Text in a colour, and the usual one behind it. -/
def paint (colour : Colour) (text : String) : String :=
  String.join ["\x1b[", toString colour.number, "m", text, "\x1b[39m"]

end Colour

/-- Where a command writes. -/
class Console (m : Type → Type) where
  print : String → m Unit
  report : String → m Unit

/-- A clock that can be waited for; its moments are in milliseconds. -/
class Clock (m : Type → Type) where
  waitUntil : Rat → m Unit

/-- How a command ends. -/
inductive Outcome where
  | code (value : Nat)
  | aborted (cause : Abort)
  deriving DecidableEq, Repr

namespace Console

variable {m : Type → Type} [Console m]

def printLine (text : String) : m Unit :=
  print (text ++ "\n")

/-- A line of output that something was done. -/
def success (text : String) : m Unit :=
  printLine (Colour.green.paint text)

def error (message : String) : m Unit :=
  report (Colour.red.paint s!"Error: {message}" ++ "\n")

def warning (message : String) : m Unit :=
  report (Colour.yellow.paint s!"Warning: {message}" ++ "\n")

end Console
end Flowchart
