/-!
What changes from one list to another: stretches that stay and stretches that are replaced. The longest
common stretch stays, the earliest of equally long ones, and so on in front of it and behind it. The old
sides of all stretches in order are the old list, and the new sides are the new one.
-/
namespace Flowchart

/-- A stretch of two lists: the same in both, or something for something else, perhaps for nothing. -/
inductive Edit (α : Type) where
  | keep (items : List α)
  | change (old new : List α)
  deriving DecidableEq, Repr

namespace Edit

variable {α : Type}

/-- What the stretch is in the old list. -/
def old : Edit α → List α
  | keep items => items
  | change old _ => old

/-- What the stretch is in the new list. -/
def new : Edit α → List α
  | keep items => items
  | change _ new => new

def isChange : Edit α → Bool
  | keep _ => false
  | change _ _ => true

end Edit

namespace Diff

variable {α : Type}

/-- A stretch that two lists share: where it starts in each, and its length. -/
structure Match where
  oldStart : Nat := 0
  newStart : Nat := 0
  length : Nat := 0
  deriving DecidableEq, Repr

section
variable [DecidableEq α]

/-- For each place of the new list, how long the stretch is that ends there and at a given item of the old
one. `before` holds the lengths for the item in front of that one, `diagonal` the one before its head. -/
def stretchesAt (isAnchor : α → Bool) (item : α) (diagonal : Nat) : List α → List Nat → List Nat
  | [], _ => []
  | other :: rest, before =>
    (if item = other && isAnchor other then diagonal + 1 else 0) ::
      stretchesAt isAnchor item (before.headD 0) rest before.tail

/-- The better of a match and the stretches that end at a place of the old list, the first of equals. -/
def betterAt (oldEnd newEnd : Nat) (best : Match) : List Nat → Match
  | [] => best
  | length :: rest =>
    let best :=
      if best.length < length then ⟨oldEnd - length, newEnd - length, length⟩ else best
    betterAt oldEnd (newEnd + 1) best rest

def longestFrom (isAnchor : α → Bool) (new : List α) (oldEnd : Nat) (before : List Nat) (best : Match) :
    List α → Match
  | [] => best
  | item :: rest =>
    let stretches := stretchesAt isAnchor item 0 new before
    longestFrom isAnchor new (oldEnd + 1) stretches (betterAt oldEnd 1 best stretches) rest

/-- The length of the common beginning of two lists. -/
def commonLength : List α → List α → Nat
  | a :: as, b :: bs => if a = b then commonLength as bs + 1 else 0
  | _, _ => 0

/-- A match extended as far as the items in front of it and behind it are equal. -/
def extend (old new : List α) (found : Match) : Match :=
  let back :=
    commonLength (old.take found.oldStart).reverse (new.take found.newStart).reverse
  let ahead :=
    commonLength (old.drop (found.oldStart + found.length)) (new.drop (found.newStart + found.length))
  ⟨found.oldStart - back, found.newStart - back, back + found.length + ahead⟩

/-- The longest common stretch that starts from anchors. -/
def longest (isAnchor : α → Bool) (old new : List α) : Match :=
  extend old new (longestFrom isAnchor new 1 [] {} old)

/-- The edits from one list to another, stretches that stay being split where they were found. -/
def split (isAnchor : α → Bool) (fuel : Nat) (old new : List α) : List (Edit α) :=
  match fuel with
  | 0 => [.change old new]
  | fuel + 1 =>
    if old.isEmpty && new.isEmpty then []
    else if old.isEmpty || new.isEmpty then [.change old new]
    else
      let found := longest isAnchor old new
      if found.length = 0 then [.change old new]
      else
        split isAnchor fuel (old.take found.oldStart) (new.take found.newStart) ++
          .keep ((old.drop found.oldStart).take found.length) ::
            split isAnchor fuel (old.drop (found.oldStart + found.length))
              (new.drop (found.newStart + found.length))

end

/-- Joins stretches that stay and lie next to each other. -/
def join : List (Edit α) → List (Edit α)
  | [] => []
  | .keep items :: rest =>
    match join rest with
    | .keep more :: rest => .keep (items ++ more) :: rest
    | rest => .keep items :: rest
  | edit :: rest => edit :: join rest

/-- The edits from one list to another. Matches start from anchors only. -/
def edits [DecidableEq α] (isAnchor : α → Bool) (old new : List α) : List (Edit α) :=
  join (split isAnchor (old.length + 1) old new)

end Diff
end Flowchart
