import HunkReview.Screen.Cell
import HunkReview.Text.Cluster
import HunkReview.Text.Width

/-!
# Painting lines

Text goes onto a row of cells symbol by symbol, a symbol being what is read as one character. A
symbol of two columns takes two cells and stands in the first. What does not fit before the right
end is not painted, and cells that no symbol reaches stay as they are.

There are two ways to paint. A line of a list keeps symbols without columns of their own on the
cell before them, and clears the second cell of a wide symbol. A line of running text leaves out
symbols without columns.
-/

namespace HunkReview.Screen

structure Symbol where
  text : List Char
  look : Look := {}
  deriving DecidableEq, Repr

def Symbol.columns (s : Symbol) : Nat :=
  Text.columns s.text

structure Stretch where
  text : List Char
  look : Look := {}
  deriving DecidableEq, Repr

namespace Stretch

def ofString (text : String) (look : Look := {}) : Stretch :=
  ⟨text.toList, look⟩

def columns (s : Stretch) : Nat :=
  Text.columns s.text

def symbols (s : Stretch) : List Symbol :=
  ((Text.clusters s.text).filter (· != ['\n'])).map (⟨·, s.look⟩)

end Stretch

def lineColumns : List Stretch → Nat
  | [] => 0
  | s :: rest => s.columns + lineColumns rest

/-- Paint symbols of a list's line, when `done` holds the stretch's cells already painted, last
one first, and `under` the cells that follow. -/
def paintFrom (first : Bool) (done under : List Cell) : List Symbol → List Cell
  | [] => done.reverse ++ under
  | s :: rest =>
    if under.length < s.columns then done.reverse ++ under
    else
      match done, under with
      | [], [] => []
      | [], cell :: next =>
        let cell := if first then cell.write s.text s.look else cell.append s.text s.look
        if s.columns = 0 then paintFrom false [] (cell :: next) rest
        else
          paintFrom false (List.replicate (s.columns - 1) .blank ++ [cell])
            (next.drop (s.columns - 1)) rest
      | last :: before, under =>
        if s.columns = 0 then paintFrom false (last.append s.text s.look :: before) under rest
        else
          match under with
          | [] => done.reverse
          | cell :: next =>
            paintFrom false
              (List.replicate (s.columns - 1) .blank ++ cell.write s.text s.look :: done)
              (next.drop (s.columns - 1)) rest

def Stretch.paint (s : Stretch) (under : List Cell) : List Cell :=
  paintFrom true [] under s.symbols

/-- Paint stretches one after the other; those without columns are left out. -/
def paintStretches (under : List Cell) : List Stretch → List Cell
  | [] => under
  | s :: rest =>
    if s.columns = 0 then paintStretches under rest
    else
      let painted := s.paint under
      painted.take s.columns ++ paintStretches (painted.drop s.columns) rest

/-- Paint a list's line. Its own look reaches over the whole row, unless the line is empty. -/
def paintLine (look : Look) (line : List Stretch) (under : List Cell) : List Cell :=
  if lineColumns line = 0 then under
  else paintStretches (under.map (Cell.restyle look)) line

def paintSymbols (under : List Cell) : List Symbol → List Cell
  | [] => under
  | s :: rest =>
    if s.columns = 0 then paintSymbols under rest
    else
      match under with
      | [] => []
      | cell :: next =>
        cell.write s.text s.look :: next.take (s.columns - 1) ++
          paintSymbols (next.drop (s.columns - 1)) rest

/-- The symbols of running text that show in a row of `width` columns, `used` of which are taken,
when the first `hidden` columns are scrolled away. A symbol wider than the row is left out. -/
def cutLine (width hidden used : Nat) : List Symbol → List Symbol
  | [] => []
  | s :: rest =>
    if width < s.columns then cutLine width hidden used rest
    else if width < used + s.columns then []
    else if hidden = 0 ∨ hidden < s.columns then s :: cutLine width 0 (used + s.columns) rest
    else cutLine width (hidden - s.columns) used rest

end HunkReview.Screen
