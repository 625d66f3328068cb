import HunkReview.Screen.Picture

/-!
# What shows of a picture

A symbol of two columns hides the cell after its own. A row shows as the text of its cells, and as
runs of neighbouring cells of one style.
-/

namespace HunkReview.Screen

structure ShownCell where
  column : Nat
  columns : Nat
  cell : Cell
  deriving DecidableEq, Repr

/-- The cells of a row that show, when the first stands in a column and some are hidden. -/
def shownFrom (column : Nat) : Nat → List Cell → List ShownCell
  | _, [] => []
  | hidden + 1, _ :: cells => shownFrom (column + 1) hidden cells
  | 0, c :: cells =>
    let columns := max (Text.columns c.symbol) 1
    ⟨column, columns, c⟩ :: shownFrom (column + 1) (columns - 1) cells

def shownCells (row : List Cell) : List ShownCell :=
  shownFrom 0 0 row

def rowText (row : List Cell) : String :=
  String.ofList ((shownCells row).flatMap (·.cell.symbol))

/-- Columns from `start` up to `stop` whose cells look like one of them. -/
structure CellRun where
  start : Nat
  stop : Nat
  cell : Cell
  deriving DecidableEq, Repr

def joinCells : List ShownCell → List CellRun
  | [] => []
  | s :: rest =>
    match joinCells rest with
    | r :: runs =>
      if s.cell.sameStyle r.cell then ⟨s.column, r.stop, s.cell⟩ :: runs
      else ⟨s.column, s.column + s.columns, s.cell⟩ :: r :: runs
    | [] => [⟨s.column, s.column + s.columns, s.cell⟩]

def styledRuns (row : List Cell) : List CellRun :=
  (joinCells (shownCells row)).filter fun r => !r.cell.sameStyle .blank

namespace Picture

def texts (p : Picture) : List String :=
  p.map rowText

def runs (p : Picture) : List (Nat × CellRun) :=
  (p.mapIdx fun y row => (styledRuns row).map (y, ·)).flatten

end Picture

end HunkReview.Screen
