import HunkReview.Screen.Line

/-!
# Wrapping lines

A line of running text that is too long for its row goes on in further rows. It is cut before a
word that does not fit, and inside a word longer than a row. Blanks are kept, except those that
would stand right at a cut.
-/

namespace HunkReview.Screen

/-- Blanks at which a line may be cut: a zero-width space, and white space that is not
non-breaking. -/
def Symbol.isBreak (s : Symbol) : Bool :=
  s.text == ['\u200B'] || (s.text.all Text.isBlank && s.text != ['\u00A0'])

def columnsOf : List Symbol → Nat
  | [] => 0
  | s :: rest => s.columns + columnsOf rest

/-- Rows already full, the row being filled, and the blanks and the word still to be placed. -/
structure Wrapping where
  rows : List (List Symbol) := []
  row : List Symbol := []
  blanks : List Symbol := []
  word : List Symbol := []
  inWord : Bool := false
  deriving DecidableEq, Repr

namespace Wrapping

def place (w : Wrapping) : Wrapping :=
  { w with row := w.row ++ w.blanks ++ w.word, blanks := [], word := [] }

/-- Drop blanks that fit into the columns left at the end of a row. -/
def dropFitting (room : Nat) : List Symbol → List Symbol
  | [] => []
  | s :: rest => if s.columns ≤ room then dropFitting (room - s.columns) rest else s :: rest

def endRow (width : Nat) (w : Wrapping) : Wrapping :=
  { w with
    rows := w.rows ++ [w.row]
    row := []
    blanks := dropFitting (width - columnsOf w.row) w.blanks }

def hold (s : Symbol) (w : Wrapping) : Wrapping :=
  if s.isBreak then { w with blanks := w.blanks ++ [s], inWord := false }
  else { w with word := w.word ++ [s], inWord := true }

/-- Take one more symbol. A blank at which the row was ended is dropped. -/
def take (width : Nat) (w : Wrapping) (s : Symbol) : Wrapping :=
  if width < s.columns then w
  else
    let overflow := w.row.isEmpty && width < columnsOf w.word + columnsOf w.blanks + s.columns
    let w := if (w.inWord && s.isBreak) || overflow then w.place else w
    if width ≤ columnsOf w.row ∨
        (0 < s.columns ∧ width ≤ columnsOf w.row + columnsOf w.blanks + columnsOf w.word) then
      let w := w.endRow width
      if s.isBreak && w.blanks.isEmpty then w else w.hold s
    else w.hold s

def finish (w : Wrapping) : List (List Symbol) :=
  let rows := if w.row.isEmpty && w.word.isEmpty && !w.blanks.isEmpty then w.rows ++ [[]] else w.rows
  let last := w.place.row
  let rows := if last.isEmpty then rows else rows ++ [last]
  if rows.isEmpty then [[]] else rows

end Wrapping

def wrapLine (width : Nat) (line : List Symbol) : List (List Symbol) :=
  (line.foldl (Wrapping.take width) {}).finish

end HunkReview.Screen
