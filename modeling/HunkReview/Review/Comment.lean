import HunkReview.Diff.Hunk
import HunkReview.Text.Hex
import HunkReview.Time

/-!
# Comments

A comment belongs to a hunk and may be pinned to one of its lines. It remembers the line as it
was when the comment was written, with the numbers that fit the line's kind, and the lines that
were selected.
-/

namespace HunkReview

inductive Side where
  | old
  | new
  deriving DecidableEq, Repr

def Side.name : Side → String
  | old => "old"
  | new => "new"

/-- Selected lines of one side, both ends included. -/
structure Selection where
  first : LineNo
  last : LineNo
  side : Side
  deriving DecidableEq, Repr

def Selection.spanning (side : Side) (a b : LineNo) : Selection :=
  if a.val ≤ b.val then ⟨a, b, side⟩ else ⟨b, a, side⟩

/-- The selection from one line to another: on the new side if both have a number there, else on
the old side if both have one there. -/
def Selection.between (a b : NumberedLine) : Option Selection :=
  match a.newLine, b.newLine, a.oldLine, b.oldLine with
  | some x, some y, _, _ => some (spanning .new x y)
  | _, _, some x, some y => some (spanning .old x y)
  | _, _, _, _ => none

structure Anchor where
  hunk : HunkId
  file : String
  line : Option NumberedLine
  deriving DecidableEq, Repr

abbrev Uuid := BitVec 128

def Uuid.text (id : Uuid) : String :=
  let digits := Text.hexDigits 32 id.toNat
  String.ofList <| digits.take 8 ++ '-' :: (digits.drop 8).take 4 ++ '-' :: (digits.drop 12).take 4 ++
    '-' :: (digits.drop 16).take 4 ++ '-' :: digits.drop 20

structure Comment where
  id : Uuid
  hunk : HunkId
  file : String
  text : String
  createdAt : Instant
  line : Option NumberedLine
  selection : Option Selection
  deriving DecidableEq, Repr

/-- A deleted line has only its old number and an added line only its new one. -/
def NumberedLine.pinned (l : NumberedLine) : NumberedLine :=
  match l.kind with
  | .deletion => { l with newLine := none }
  | .addition => { l with oldLine := none }
  | .context => l

/-- The mark that goes before a comment on the line: `[+n]`, `[-n]` or `[Ln]`. -/
def NumberedLine.label (l : NumberedLine) : Option String :=
  match l.kind with
  | .addition => l.newLine.map fun n => "[+" ++ n.render ++ "]"
  | .deletion => l.oldLine.map fun n => "[-" ++ n.render ++ "]"
  | .context => (l.newLine.or l.oldLine).map fun n => "[L" ++ n.render ++ "]"

/-- What makes each comment distinct: its identifier and the time of writing. -/
structure Stamp where
  id : Uuid
  time : Instant
  deriving DecidableEq, Repr

namespace Comment

def write (stamp : Stamp) (anchor : Anchor) (text : String) (selection : Option Selection) :
    Comment where
  id := stamp.id
  hunk := anchor.hunk
  file := anchor.file
  text := text
  createdAt := stamp.time
  line := anchor.line.map NumberedLine.pinned
  selection := selection

def label (c : Comment) : Option String :=
  c.line.bind NumberedLine.label

/-- Whether the comment is pinned to this line of its hunk. A context line is found by its new
number when the comment has one. -/
def isOn (c : Comment) (l : NumberedLine) : Bool :=
  match c.line with
  | none => false
  | some pin =>
    pin.kind == l.kind &&
      match l.kind with
      | .deletion => pin.oldLine.isSome && pin.oldLine == l.oldLine
      | .addition => pin.newLine.isSome && pin.newLine == l.newLine
      | .context =>
        if pin.newLine.isSome then pin.newLine == l.newLine
        else pin.oldLine.isSome && pin.oldLine == l.oldLine

end Comment

end HunkReview
