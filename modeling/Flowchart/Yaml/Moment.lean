import Flowchart.Yaml.Cursor
import Flowchart.Yaml.Fault

/-!
Dates and moments: how they are written, which of them exist, and how a report shows them.
-/
namespace Flowchart.Yaml

/-- A date, or a moment with its fraction of a second and its distance from universal time. -/
structure Moment where
  year : Nat
  month : Nat
  day : Nat
  time : Option (Nat × Nat × Nat) := none
  fraction : List Char := []
  /-- Whether the distance is to the west, its hours, and its minutes. -/
  zone : Option (Bool × Nat × Nat) := none
  /-- All of month and day have two digits. -/
  isWide : Bool := true
  deriving DecidableEq, Repr

namespace Moment

def decimal (digits : List Char) : Nat :=
  digits.foldl (fun n c => 10 * n + (c.toNat - '0'.toNat)) 0

/-- A number of some digits at the head. -/
def number? (least most : Nat) (cs : List Char) : Option (Nat × List Char) :=
  let digits := (cs.take most).takeWhile Char.isDigit
  if digits.length < least then none else some (decimal digits, cs.drop digits.length)

/-- What follows a mark at the head. -/
def mark? (mark : Char) : List Char → Option (List Char)
  | c :: rest => if c = mark then some rest else none
  | [] => none

/-- The distance from universal time; the whole rest of a moment. -/
def zone? (cs : List Char) : Option (Option (Bool × Nat × Nat)) :=
  match cs.dropWhile isWhite with
  | [] => if cs.isEmpty then some none else none
  | ['Z'] => some (some (false, 0, 0))
  | sign :: rest => do
    if sign ≠ '-' && sign ≠ '+' then none
    let (hours, rest) ← number? 1 2 rest
    if rest.isEmpty then return some (sign = '-', hours, 0)
    let (minutes, rest) ← number? 2 2 (← mark? ':' rest)
    if rest.isEmpty then return some (sign = '-', hours, minutes) else none

/-- The date or the moment that a whole text names. -/
def ofChars? (cs : List Char) : Option Moment := do
  let (year, rest) ← number? 4 4 cs
  let (month, rest) ← number? 1 2 (← mark? '-' rest)
  let (day, rest) ← number? 1 2 (← mark? '-' rest)
  let isWide := cs.length - rest.length = 10
  let date : Moment := { year, month, day, isWide }
  match rest with
  | [] => return date
  | c :: _ =>
    let rest ←
      if c = 'T' || c = 't' then some rest.tail
      else if isWhite c then some (rest.dropWhile isWhite)
      else none
    let (hour, rest) ← number? 1 2 rest
    let (minute, rest) ← number? 2 2 (← mark? ':' rest)
    let (second, rest) ← number? 2 2 (← mark? ':' rest)
    let (fraction, rest) :=
      match rest with
      | '.' :: behind => (behind.takeWhile Char.isDigit, behind.dropWhile Char.isDigit)
      | rest => ([], rest)
    let zone ← zone? rest
    return { date with time := some (hour, minute, second), fraction, zone }

def monthLength (year month : Nat) : Nat :=
  let isLeap := year % 4 = 0 && (year % 100 ≠ 0 || year % 400 = 0)
  if month = 2 then if isLeap then 29 else 28
  else if [4, 6, 9, 11].contains month then 30
  else 31

/-- How many seconds the clock is ahead of universal time. -/
def zoneSeconds (zone : Bool × Nat × Nat) : Int :=
  let seconds : Int := 3600 * zone.2.1 + 60 * zone.2.2
  if zone.1 then -seconds else seconds

/-- A span of seconds, shown as days and seconds of a day. -/
def shownSpan (seconds : Int) : String :=
  let days := Int.fdiv seconds 86400
  let rest := Int.fmod seconds 86400
  let parts :=
    (if days = 0 then [] else [s!"days={days}"]) ++ if rest = 0 then [] else [s!"seconds={rest}"]
  let shown := ", ".intercalate parts
  s!"datetime.timedelta({shown})"

/-- Why a moment does not exist, if it does not. -/
def flaw? (moment : Moment) : Option String :=
  let zoneFlaw :=
    moment.zone.bind fun zone =>
      let seconds := zoneSeconds zone
      if seconds.natAbs < 86400 then none
      else some (String.join
        ["offset must be a timedelta strictly between -timedelta(hours=24) and ",
          "timedelta(hours=24), not ", shownSpan seconds])
  let timeFlaw :=
    moment.time.bind fun (hour, minute, second) =>
      if 24 ≤ hour then some "hour must be in 0..23"
      else if 60 ≤ minute then some "minute must be in 0..59"
      else if 60 ≤ second then some "second must be in 0..59"
      else none
  let dateFlaw :=
    if moment.year = 0 then some "year 0 is out of range"
    else if moment.month = 0 || 12 < moment.month then some "month must be in 1..12"
    else if moment.day = 0 || monthLength moment.year moment.month < moment.day then
      some "day is out of range for month"
    else none
  zoneFlaw <|> dateFlaw <|> timeFlaw

/-- The first six digits of the fraction, as millionths. -/
def millionths (moment : Moment) : Nat :=
  let digits := moment.fraction.take 6
  decimal digits * Nat.pow 10 (6 - digits.length)

/-- A moment as a report shows it. -/
def shown (moment : Moment) : String :=
  let date := [moment.year, moment.month, moment.day]
  match moment.time with
  | none =>
    let shown := ", ".intercalate (date.map toString)
    s!"datetime.date({shown})"
  | some (hour, minute, second) =>
    let fine :=
      if moment.millionths ≠ 0 then [second, moment.millionths]
      else if second ≠ 0 then [second]
      else []
    let zone :=
      match moment.zone.map zoneSeconds with
      | none => []
      | some 0 => ["tzinfo=datetime.timezone.utc"]
      | some seconds => [s!"tzinfo=datetime.timezone({shownSpan seconds})"]
    let shown := ", ".intercalate ((date ++ [hour, minute] ++ fine).map toString ++ zone)
    s!"datetime.datetime({shown})"

end Moment
end Flowchart.Yaml
