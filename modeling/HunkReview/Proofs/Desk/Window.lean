import HunkReview.Proofs.Desk.InView
import HunkReview.Proofs.Stream.Painted

/-! The window on the rows. Whatever happens to a desk, the row under its cursor is one that there is
and one that the window shows; and to scroll there no row is counted from before the first. -/
namespace HunkReview

namespace Desk

def rowsShown (d : Desk) (height : Nat) : List StyledRow :=
  (d.view.rows.drop d.scroll).take height

/-- They are the rows that are painted, each with its number. -/
example (d : Desk) (p : Screen.Picture) :
    d.paintStream p = p.frame "" fun inner =>
      inner.paintRows <| (d.rowsShown inner.height).mapIdx fun i r =>
        Screen.paintLine (d.rowLook (d.scroll + i)) (rowStretches r) :=
  rfl

/-- A row in the window is shown as far down as it is below the first one shown. -/
theorem getElem?_rowsShown {d : Desk} {height row : Nat} (above : d.scroll ≤ row)
    (below : row < d.scroll + height) : (d.rowsShown height)[row - d.scroll]? = d.view.rows[row]? := by
  rw [rowsShown, List.getElem?_take_of_lt (by omega), List.getElem?_drop, Nat.add_sub_cancel' above]

/-- Showing the cursor, stuck where the first row would have a number less than nothing. -/
def revealCursor? (d : Desk) : Option Desk :=
  let rows := max d.viewport 1
  if d.cursor < d.scroll then some { d with scroll := d.cursor }
  else if d.scroll + rows ≤ d.cursor then
    if rows ≤ d.cursor + 1 then some { d with scroll := d.cursor + 1 - rows } else none
  else some d

theorem revealCursor?_eq (d : Desk) : d.revealCursor? = some d.revealCursor := by
  by_cases before : d.cursor < d.scroll
  · simp [revealCursor?, revealCursor, before]
  · by_cases behind : d.scroll + max d.viewport 1 ≤ d.cursor
    · have counted : max d.viewport 1 ≤ d.cursor + 1 := by omega
      simp [revealCursor?, revealCursor, before, behind, counted]
    · simp [revealCursor?, revealCursor, before, behind]

/-- There are as many rows laid out as there are tags. -/
theorem Fresh.length_rows {d : Desk} (fresh : d.Fresh) : d.view.rows.length = d.view.size := by
  have laid : d.view.rows = d.view.stream.layout := congrArg View.rows fresh.view
  rw [laid, Stream.layout, length_layout, Stream.segments, List.length_map, View.size]

/-- The cursor is on a row and the window shows it; a selection begins at a row. -/
structure ShowsCursor (d : Desk) : Prop extends InView d where
  rows : 0 < d.view.size
  shown : ∃ r, d.view.rows[d.cursor]? = some r ∧
    (d.rowsShown (max d.viewport 1))[d.cursor - d.scroll]? = some r

theorem InView.showsCursor {d : Desk} (inView : d.InView) (fresh : d.Fresh) : d.ShowsCursor where
  toInView := inView
  rows := Nat.zero_lt_of_lt inView.cursor
  shown := by
    have there : d.cursor < d.view.rows.length := fresh.length_rows ▸ inView.cursor
    refine ⟨d.view.rows[d.cursor], List.getElem?_eq_getElem there, ?_⟩
    rw [getElem?_rowsShown inView.above inView.below, List.getElem?_eq_getElem there]

end Desk

namespace Loop

/-- In all runs the cursor is on a row that the window shows, whatever the window's height and however
many rows are left; and showing a cursor is never stuck. -/
theorem showsCursor_run (session : Session) (source : Source) (settings : Settings)
    (steps : List Step) :
    (run session source settings steps).desk.ShowsCursor ∧
      ∀ d : Desk, d.revealCursor? = some d.revealCursor :=
  ⟨(inView_run session source settings steps).showsCursor (fresh_run session source settings steps),
    Desk.revealCursor?_eq⟩

end Loop

end HunkReview
