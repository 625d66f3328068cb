import HunkReview.Screen.Wrap
import HunkReview.Text.Lines

/-!
# Pictures

A picture is a block of cells, row by row. Pictures are painted by functions that keep their size;
`within` paints a part of a picture.
-/

namespace HunkReview.Screen

abbrev Picture := List (List Cell)

structure Area where
  left : Nat
  top : Nat
  width : Nat
  height : Nat
  deriving DecidableEq, Repr

namespace Picture

def blank (width height : Nat) : Picture :=
  List.replicate height (List.replicate width .blank)

def clear (p : Picture) : Picture :=
  p.map fun row => row.map fun _ => Cell.blank

def restyle (look : Look) (p : Picture) : Picture :=
  p.map fun row => row.map (Cell.restyle look)

def width (p : Picture) : Nat :=
  (p.head?.map List.length).getD 0

def height (p : Picture) : Nat :=
  p.length

/-- The part of the row from `left` on, changed. -/
def splice (left width : Nat) (row part : List Cell) : List Cell :=
  row.take left ++ part ++ row.drop (left + width)

def within (a : Area) (paint : Picture → Picture) (p : Picture) : Picture :=
  let rows := (p.drop a.top).take a.height
  let part := rows.map fun row => (row.drop a.left).take a.width
  p.take a.top ++ List.zipWith (splice a.left a.width) rows (paint part) ++
    p.drop (a.top + a.height)

def paintRows (painters : List (List Cell → List Cell)) (p : Picture) : Picture :=
  List.zipWith (fun paint row => paint row) painters p ++ p.drop painters.length

/-- The border's symbol at a cell of a box, if the cell is on the border. -/
def borderSymbol? (width height x y : Nat) : Option Char :=
  if x = 0 ∧ y = 0 then some '┌'
  else if x = 0 ∧ y + 1 = height then some '└'
  else if y = 0 ∧ x + 1 = width then some '┐'
  else if x + 1 = width ∧ y + 1 = height then some '┘'
  else if x = 0 ∨ x + 1 = width then some '│'
  else if y = 0 ∨ y + 1 = height then some '─'
  else none

def border (p : Picture) : Picture :=
  p.mapIdx fun y row => row.mapIdx fun x cell =>
    match borderSymbol? row.length p.length x y with
    | some symbol => cell.write [symbol] {}
    | none => cell

def box (title : String) (p : Picture) : Picture :=
  let line := (Text.stringLines title).map (Stretch.ofString ·)
  let columns := min (lineColumns line) (p.width - 2)
  p.border.within ⟨1, 0, columns, 1⟩ (paintRows [paintLine {} line])

def inside (p : Picture) : Area :=
  ⟨1, 1, p.width - 2, p.height - 2⟩

def frame (title : String) (paint : Picture → Picture) (p : Picture) : Picture :=
  (p.box title).within p.inside paint

def textLines (text : String) : List (List Symbol) :=
  (Text.stringLines text).map fun line => (Stretch.ofString line).symbols

/-- Paint lines, each cut at the right end, of which the first `hidden` columns are scrolled
away. -/
def paintCut (hidden : Nat) (lines : List (List Symbol)) (p : Picture) : Picture :=
  p.paintRows <| lines.map fun line row => paintSymbols row (cutLine row.length hidden 0 line)

def paintWrapped (lines : List (List Symbol)) (p : Picture) : Picture :=
  p.paintRows <| (lines.flatMap (wrapLine p.width)).map fun line row => paintSymbols row line

end Picture

end HunkReview.Screen
