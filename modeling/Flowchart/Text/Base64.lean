/-!
Bytes written in base 64. Characters that are no digits are passed over, and what follows complete
padding is not read.
-/
namespace Flowchart.Text.Base64

def digit? (c : Char) : Option Nat :=
  if 'A' ≤ c && c ≤ 'Z' then some (c.toNat - 'A'.toNat)
  else if 'a' ≤ c && c ≤ 'z' then some (c.toNat - 'a'.toNat + 26)
  else if c.isDigit then some (c.toNat - '0'.toNat + 52)
  else if c = '+' then some 62
  else if c = '/' then some 63
  else none

/-- The bytes that the rest of a text adds, given what is left of the digits before: their count in the
unfinished group, the bits that make no byte yet, and the padding since the last digit. -/
def decodeFrom (count bits padding : Nat) : List Char → Option (List UInt8)
  | [] => if count = 0 then some [] else none
  | c :: rest =>
    if c = '=' then
      if 2 ≤ count && 4 ≤ count + padding + 1 then some []
      else decodeFrom count bits (padding + 1) rest
    else match digit? c with
      | none => decodeFrom count bits padding rest
      | some digit =>
        let bits := 64 * bits + digit
        match count with
        | 0 => decodeFrom 1 bits 0 rest
        | 1 => (decodeFrom 2 (bits % 16) 0 rest).map (UInt8.ofNat (bits / 16) :: ·)
        | 2 => (decodeFrom 3 (bits % 4) 0 rest).map (UInt8.ofNat (bits / 4) :: ·)
        | _ => (decodeFrom 0 0 0 rest).map (UInt8.ofNat bits :: ·)

/-- The bytes that a text stands for; none if its last group is incomplete. -/
def decode? (text : List Char) : Option (List UInt8) :=
  decodeFrom 0 0 0 text

end Flowchart.Text.Base64
