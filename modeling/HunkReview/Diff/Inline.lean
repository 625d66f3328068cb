/-!
# Character differences

An edit script turns one text into another by keeping, adding and removing characters. The one
chosen keeps as many characters as possible; where adding and removing keep equally many, the
added character comes first. Scripts are computed for all pairs of suffixes, one row of suffixes
of the new text for each suffix of the old one.
-/

namespace HunkReview.Inline

inductive Edit where
  | unchanged
  | added
  | removed
  deriving DecidableEq, Repr

/-- An edit script with the number of characters it keeps. -/
structure Script where
  kept : Nat
  edits : List (Edit × Char)
  deriving DecidableEq, Repr

namespace Script

def empty : Script := ⟨0, []⟩

def keep (c : Char) (s : Script) : Script := ⟨s.kept + 1, (.unchanged, c) :: s.edits⟩

def add (c : Char) (s : Script) : Script := ⟨s.kept, (.added, c) :: s.edits⟩

def remove (c : Char) (s : Script) : Script := ⟨s.kept, (.removed, c) :: s.edits⟩

/-- The script for `x :: a` and `y :: b`, given those for `a` and `b`, for `x :: a` and `b`, and
for `a` and `y :: b`. -/
def choose (x y : Char) (both adding removing : Script) : Script :=
  if x = y then both.keep x
  else if removing.kept ≤ adding.kept then adding.add y
  else removing.remove x

end Script

/-- The scripts from the empty text to every suffix of `new`, the longest first. -/
def firstRow : List Char → List Script
  | [] => [.empty]
  | y :: b =>
    let shorter := firstRow b
    (shorter.head?.getD .empty).add y :: shorter

/-- The scripts from `x :: a` to every suffix of `new`, given those from `a`. -/
def nextRow (x : Char) : List Char → List Script → List Script
  | [], below => [((below.head?.getD .empty).remove x)]
  | y :: b, below =>
    let adding := nextRow x b below.tail
    Script.choose x y (below.tail.head?.getD .empty) (adding.head?.getD .empty)
      (below.head?.getD .empty) :: adding

def script (old new : List Char) : Script :=
  (old.foldr (fun x below => nextRow x new below) (firstRow new)).head?.getD .empty

structure Part where
  kind : Edit
  text : List Char
  deriving DecidableEq, Repr

/-- Neighbouring edits of one kind gathered into parts. -/
def gather : List (Edit × Char) → List Part
  | [] => []
  | (kind, c) :: edits =>
    match gather edits with
    | [] => [⟨kind, [c]⟩]
    | p :: ps => if p.kind = kind then ⟨kind, c :: p.text⟩ :: ps else ⟨kind, [c]⟩ :: p :: ps

def diff (old new : String) : List Part :=
  gather (script old.toList new.toList).edits

end HunkReview.Inline
