import HunkReview.Text.Blank

/-!
# Words

A word is a stretch of characters of one kind that are not blank. Positions in a line are numbers
of characters before them.
-/

namespace HunkReview.Text

inductive WordKind where
  | blank
  | punctuation
  | letter
  deriving DecidableEq, Repr

def isPunctuation (c : Char) : Bool :=
  inRanges [(0x21, 0x2F), (0x3A, 0x40), (0x5B, 0x60), (0x7B, 0x7E)] c

def WordKind.of (c : Char) : WordKind :=
  if isBlank c then .blank else if isPunctuation c then .punctuation else .letter

/-- The first position whose element and the one before it satisfy `p`. -/
def firstChange {α : Type} (p : α → α → Bool) : List α → Option Nat
  | a :: b :: rest => if p a b then some 1 else (firstChange p (b :: rest)).map (· + 1)
  | _ => none

def startsWord (before after : Char) : Bool :=
  WordKind.of after != .blank && WordKind.of before != WordKind.of after

def endsWord (before after : Char) : Bool :=
  WordKind.of before != .blank && WordKind.of before != WordKind.of after

def nextWordStart? (line : List Char) (position : Nat) : Option Nat :=
  (firstChange startsWord (line.drop position)).map (position + ·)

/-- The next position at which a word ends, short of the line's end. -/
def nextWordEnd? (line : List Char) (position : Nat) : Option Nat :=
  (firstChange endsWord (line.drop position)).map (position + ·)

def lastWordStart? (line : List Char) (position : Nat) : Option Nat :=
  let before := (line.take position).reverse
  match firstChange endsWord before with
  | some n => some (position - n)
  | none => if before.getLast?.any (WordKind.of · != .blank) then some 0 else none

end HunkReview.Text
