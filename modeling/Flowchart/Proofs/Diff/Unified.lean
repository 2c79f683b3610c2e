import Flowchart.Number.Decimal
import Flowchart.Text.Split

/-!
What a unified patch says and what it makes of a text. The heads of its hunks tell the place and the number of the
lines in both texts; a patch applies only if its hunks follow one another, if the lines that they keep and take away
are those of the text at the place that is told, and if the lines that come out stand at the place that is told.
-/
namespace Flowchart.Diff

/-- Some lines of a text: how many stand in front of them, and how many they are. -/
structure Stretch where
  start : Nat
  length : Nat
  deriving DecidableEq, Repr

/-- A hunk of a patch. Its lines stand behind a sign: a hyphen for the old text, a plus for the new one, and a space
for both. -/
structure Hunk where
  old : Stretch
  new : Stretch
  lines : List (Char × List Char)
  deriving DecidableEq, Repr

namespace Hunk

def oldLines (hunk : Hunk) : List (List Char) :=
  (hunk.lines.filter (·.1 ≠ '+')).map Prod.snd

def newLines (hunk : Hunk) : List (List Char) :=
  (hunk.lines.filter (·.1 ≠ '-')).map Prod.snd

end Hunk

/-- The lines of a text, with the line feeds that end them. No other character ends a line. -/
def feedLines : List Char → List (List Char)
  | [] => []
  | c :: rest =>
    if c = '\n' then [c] :: feedLines rest
    else match feedLines rest with
      | [] => [[c]]
      | line :: lines => (c :: line) :: lines

/-- The lines that a head tells: the number of the first, counted from one, and how many they are, unless it is one.
Of no lines the number is that of the line in front of them. -/
def readStretch? (cs : List Char) : Option (Stretch × List Char) :=
  let (first, behind) := Number.spanDigits cs
  let (count, rest) :=
    match behind with
    | ',' :: behind => Number.spanDigits behind
    | _ => (['1'], behind)
  let number := Number.digitsValue first
  let length := Number.digitsValue count
  if first.isEmpty || count.isEmpty then none
  else if length = 0 then some (⟨number, 0⟩, rest)
  else if number = 0 then none
  else some (⟨number - 1, length⟩, rest)

/-- What the head of a hunk tells of the old and of the new text. -/
def readHead? (line : List Char) : Option (Stretch × Stretch) := do
  let rest ← Text.stripPrefix? ['@', '@', ' ', '-'] line
  let (old, rest) ← readStretch? rest
  let rest ← Text.stripPrefix? [' ', '+'] rest
  let (new, rest) ← readStretch? rest
  if rest = [' ', '@', '@', '\n'] then some (old, new) else none

/-- The lines of a hunk with so many lines of each text, and the lines behind it. -/
def readBody? (old new : Nat) : List (List Char) → Option (List (Char × List Char) × List (List Char))
  | [] => if old = 0 && new = 0 then some ([], []) else none
  | line :: lines =>
    if old = 0 && new = 0 then some ([], line :: lines)
    else match line with
      | [] => none
      | sign :: text =>
        let isOld := sign = ' ' || sign = '-'
        let isNew := sign = ' ' || sign = '+'
        if !isOld && !isNew || (isOld && old = 0) || (isNew && new = 0) then none
        else
          (readBody? (if isOld then old - 1 else old) (if isNew then new - 1 else new) lines).map
            fun (marked, rest) => ((sign, text) :: marked, rest)

theorem length_le_of_readBody? {old new : Nat} {lines rest : List (List Char)} {marked : List (Char × List Char)}
    (read : readBody? old new lines = some (marked, rest)) : rest.length ≤ lines.length := by
  induction lines generalizing old new marked with
  | nil =>
    rw [readBody?.eq_def] at read
    dsimp only at read
    split at read
    · cases read
      exact Nat.le_refl _
    · cases read
  | cons line lines ih =>
    rw [readBody?.eq_def] at read
    dsimp only at read
    split at read
    · cases read
      exact Nat.le_refl _
    · cases line with
      | nil => cases read
      | cons sign text =>
        dsimp only at read
        split at read
        · cases read
        · simp only [Option.map_eq_some_iff, Prod.exists, Prod.mk.injEq] at read
          obtain ⟨marked, rest, read, -, rfl⟩ := read
          exact Nat.le_succ_of_le (ih read)

/-- The hunks of a patch behind the names of the two texts. -/
def readHunks? : List (List Char) → Option (List Hunk)
  | [] => some []
  | head :: lines =>
    match readHead? head with
    | none => none
    | some (old, new) =>
      match _body : readBody? old.length new.length lines with
      | none => none
      | some (marked, rest) => (readHunks? rest).map (⟨old, new, marked⟩ :: ·)
termination_by lines => lines.length
decreasing_by exact Nat.lt_succ_of_le (length_le_of_readBody? _body)

/-- The hunks that a patch has. One that changes nothing is empty; all others name the two texts first. -/
def readPatch? (patch : List Char) : Option (List Hunk) :=
  match feedLines patch with
  | [] => some []
  | old :: new :: lines =>
    if ['-', '-', '-', ' '].isPrefixOf old && ['+', '+', '+', ' '].isPrefixOf new then readHunks? lines else none
  | [_] => none

/-- Applies hunks to what is left of a text behind some lines of it, which have become some lines of the new one. -/
def applyFrom? (oldPlace newPlace : Nat) : List Hunk → List (List Char) → Option (List (List Char))
  | [], lines => some lines
  | hunk :: hunks, lines =>
    let skipped := hunk.old.start - oldPlace
    let here := lines.drop skipped
    if oldPlace ≤ hunk.old.start && hunk.new.start = newPlace + skipped && hunk.oldLines.isPrefixOf here then
      (applyFrom? (hunk.old.start + hunk.old.length) (hunk.new.start + hunk.new.length) hunks
        (here.drop hunk.oldLines.length)).map (lines.take skipped ++ hunk.newLines ++ ·)
    else none

/-- What a patch makes of a text, if it is one and applies. -/
def applyPatch? (patch text : String) : Option String := do
  let hunks ← readPatch? patch.toList
  let lines ← applyFrom? 0 0 hunks (feedLines text.toList)
  return String.ofList lines.flatten

section reading

variable {line rest : List Char}

/-- A line that is ended by a line feed and has no other one. -/
def IsFed (line : List Char) : Prop :=
  ∃ body, '\n' ∉ body ∧ line = body ++ ['\n']

theorem isFed_cons {c : Char} (differs : c ≠ '\n') (isFed : IsFed line) : IsFed (c :: line) := by
  obtain ⟨body, absent, rfl⟩ := isFed
  exact ⟨c :: body, List.not_mem_cons_of_ne_of_not_mem differs.symm absent, rfl⟩

theorem feedLines_append (isFed : IsFed line) : feedLines (line ++ rest) = line :: feedLines rest := by
  obtain ⟨body, absent, rfl⟩ := isFed
  induction body with
  | nil => rfl
  | cons c body ih =>
    obtain ⟨differs, absent⟩ := List.ne_and_not_mem_of_not_mem_cons absent
    rw [List.cons_append, List.cons_append, feedLines, if_neg differs.symm, ih absent]

theorem feedLines_flatten {lines : List (List Char)} (areFed : ∀ line ∈ lines, IsFed line) :
    feedLines (lines.flatten ++ rest) = lines ++ feedLines rest := by
  induction lines with
  | nil => rfl
  | cons line lines ih =>
    obtain ⟨isFed, areFed⟩ := List.forall_mem_cons.1 areFed
    rw [List.flatten_cons, List.append_assoc, feedLines_append isFed, ih areFed, List.cons_append]

/-- A text that ends in a line feed falls into lines that do. -/
theorem isFed_of_mem_feedLines {text : List Char} (mem : line ∈ feedLines (text ++ ['\n'])) : IsFed line := by
  induction text generalizing line with
  | nil =>
    rw [List.nil_append, feedLines, if_pos rfl, feedLines, List.mem_singleton] at mem
    exact ⟨[], List.not_mem_nil, mem⟩
  | cons c text ih =>
    rw [List.cons_append, feedLines] at mem
    split at mem
    · rename_i isFeed
      rcases List.mem_cons.1 mem with rfl | mem
      · exact ⟨[], List.not_mem_nil, by rw [isFeed]; rfl⟩
      · exact ih mem
    · rename_i differs
      cases behind : feedLines (text ++ ['\n']) with
      | nil =>
        have noLines : feedLines (text ++ ['\n']) ≠ [] := by
          cases text with
          | nil => decide
          | cons d text =>
            rw [List.cons_append, feedLines]
            split
            · exact List.cons_ne_nil _ _
            · split <;> exact List.cons_ne_nil _ _
        exact absurd behind noLines
      | cons first lines =>
        rw [behind] at mem
        rcases List.mem_cons.1 mem with rfl | mem
        · exact isFed_cons differs (ih (behind ▸ List.mem_cons_self))
        · exact ih (behind ▸ List.mem_cons_of_mem _ mem)

theorem spanDigits_append {digits : List Char} (areDigits : ∀ c ∈ digits, c.isDigit = true)
    (ends : ∀ c ∈ rest.head?, c.isDigit = false) : Number.spanDigits (digits ++ rest) = (digits, rest) := by
  obtain ⟨taken, dropped⟩ := Text.span_append areDigits ends
  rw [Number.spanDigits, taken, dropped]

theorem digitsValue_toDigits (n : Nat) : Number.digitsValue (Nat.toDigits 10 n) = n :=
  Nat.ofDigitChars_toDigits (by decide) (by decide)

theorem isDigit_of_mem {n : Nat} : ∀ c ∈ Nat.toDigits 10 n, c.isDigit = true :=
  fun _ => Nat.isDigit_of_mem_toDigits (by decide) (by decide)

theorem isEmpty_toDigits (n : Nat) : (Nat.toDigits 10 n).isEmpty = false :=
  List.isEmpty_eq_false_iff.2 Nat.toDigits_ne_nil

/-- The lines of a hunk are read back from what is written for them. -/
theorem readBody?_append (marked : List (Char × List Char)) (lines : List (List Char))
    (signs : ∀ mark ∈ marked, mark.1 ∈ [' ', '-', '+']) :
    readBody? (marked.filter (·.1 ≠ '+')).length (marked.filter (·.1 ≠ '-')).length
      (marked.map (fun mark => mark.1 :: mark.2) ++ lines) = some (marked, lines) := by
  induction marked with
  | nil => cases lines <;> rfl
  | cons mark marked ih =>
    obtain ⟨sign, text⟩ := mark
    obtain ⟨isSign, signs⟩ := List.forall_mem_cons.1 signs
    have behind := ih signs
    simp only [List.mem_cons, List.not_mem_nil, or_false] at isSign
    rcases isSign with rfl | rfl | rfl <;> simp_all [readBody?]

end reading
end Flowchart.Diff
