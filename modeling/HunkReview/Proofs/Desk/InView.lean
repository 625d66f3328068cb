import HunkReview.Proofs.Desk.Fresh
import HunkReview.Proofs.Stream.Unmarked

/-! What is in view. The cursor stays in the rows and in the window through all runs, and a selection
begins in the rows. Showing a session anew with as many rows therefore moves nothing, and marking a
hunk leaves everything in its place. -/
namespace HunkReview

namespace Session

theorem fileRows_ne_nil (s : Session) (before : Option String) {hs : List ReviewHunk}
    (hunks : hs ≠ []) : s.fileRows before hs ≠ [] := by
  cases hs with
  | nil => exact absurd rfl hunks
  | cons h rest => simp [fileRows, hunkRows]

/-- Even a review of nothing has a row to put the cursor on. -/
theorem stream_rows_ne_nil (s : Session) (showHelp : Bool) : (s.stream showHelp).rows ≠ [] := by
  unfold stream
  dsimp only
  split
  · simp
  · next empty =>
    split
    · simp
    · exact s.fileRows_ne_nil none (by simpa using empty)

end Session

theorem View.min_lastRow_lt {v : View} (rows : 0 < v.size) (row : Nat) :
    min row v.lastRow < v.size := by
  unfold lastRow
  omega

theorem View.tag?_eq_of_sameButMarks {v w : View}
    (rows : List.Forall₂ Row.SameButMarks v.stream.rows w.stream.rows) (row : Nat) :
    v.tag? row = w.tag? row := by
  have tags : v.stream.rows.map (·.tag) = w.stream.rows.map (·.tag) := by
    rw [← List.forall₂_eq_eq_eq, List.forall₂_map_left_iff, List.forall₂_map_right_iff]
    exact rows.imp fun _ _ same => same.tag
  unfold tag?
  rw [← List.getElem?_map, ← List.getElem?_map, tags]

namespace Desk

/-- The cursor is in the rows and in the window, and so is the start of a selection in the rows. -/
structure InView (d : Desk) : Prop where
  cursor : d.cursor < d.view.size
  above : d.scroll ≤ d.cursor
  below : d.cursor < d.scroll + max d.viewport 1
  anchor : ∀ row ∈ d.anchor, row < d.view.size

/-- Showing the cursor brings it into view. -/
theorem inView_revealCursor {d : Desk} (cursor : d.cursor < d.view.size)
    (anchor : ∀ row ∈ d.anchor, row < d.view.size) : d.revealCursor.InView := by
  unfold revealCursor
  dsimp only
  split
  · exact ⟨cursor, Nat.le_refl _, by dsimp only; omega, anchor⟩
  · split
    · exact ⟨cursor, by dsimp only; omega, by dsimp only; omega, anchor⟩
    · exact ⟨cursor, by omega, by omega, anchor⟩

/-- Nothing is scrolled to show a cursor that is in the window. -/
theorem revealCursor_of_shown {d : Desk} (above : d.scroll ≤ d.cursor)
    (below : d.cursor < d.scroll + max d.viewport 1) : d.revealCursor = d := by
  unfold revealCursor
  dsimp only
  rw [if_neg (by omega), if_neg (by omega)]

theorem inView_refreshView (d : Desk) : d.refreshView.InView := by
  have rows : 0 < (View.ofStream (d.session.stream d.settings.showHelp)).size :=
    List.length_pos_iff.mpr (d.session.stream_rows_ne_nil d.settings.showHelp)
  apply inView_revealCursor
  · exact View.min_lastRow_lt rows d.cursor
  · intro row started
    obtain ⟨-, inside⟩ := Option.filter_eq_some_iff.mp started
    simpa using inside

theorem Turn.inView {d e : Desk} (turn : d.Turn e) (inView : d.InView) : e.InView := by
  obtain ⟨cursor, above, below, anchor⟩ := inView
  cases turn with
  | set mode message => exact ⟨cursor, above, below, anchor⟩
  | guarded => exact ⟨cursor, above, below, anchor⟩
  | deselected => exact ⟨cursor, above, below, nofun⟩
  | selected =>
    refine ⟨cursor, above, below, ?_⟩
    rintro _ ⟨⟩
    exact cursor
  | moved row =>
    exact inView_revealCursor (View.min_lastRow_lt (Nat.zero_lt_of_lt cursor) row) anchor
  | resized rows => exact inView_revealCursor cursor anchor
  | acted t change => exact inView_refreshView _

/-- A session that is shown with as many rows as before is shown in the same window. -/
theorem InView.refreshView_eq {d : Desk} (inView : d.InView)
    (rows : (d.session.stream d.settings.showHelp).rows.length = d.view.size) :
    d.refreshView =
      { d with
        session := (d.session.render d.settings.showHelp).1
        view := .ofStream (d.session.stream d.settings.showHelp) } := by
  obtain ⟨cursor, above, below, anchor⟩ := inView
  have size : (View.ofStream (d.session.stream d.settings.showHelp)).size = d.view.size := rows
  have last : d.cursor ≤ (View.ofStream (d.session.stream d.settings.showHelp)).lastRow := by
    unfold View.lastRow
    omega
  have kept : d.anchor.filter
      (· < (View.ofStream (d.session.stream d.settings.showHelp)).size) = d.anchor := by
    rw [size]
    cases started : d.anchor with
    | none => rfl
    | some row => simpa using anchor row started
  unfold refreshView Session.render
  dsimp only
  rw [Nat.min_eq_left last, kept]
  exact revealCursor_of_shown above below

/-- The window stands on the same rows, and all rows stand for the same. -/
structure KeepsPlace (d e : Desk) : Prop where
  cursor : e.cursor = d.cursor
  scroll : e.scroll = d.scroll
  anchor : e.anchor = d.anchor
  tags : ∀ row, e.view.tag? row = d.view.tag? row

/-- Acting on a hunk in a way that changes marks only moves nothing. -/
theorem InView.keepsPlace_onHunk {d : Desk} (inView : d.InView) (fresh : d.Fresh)
    {act : Session → HunkId → Session × Notice}
    (same : ∀ s id, (act s id).1.hunks.map (·.toHunk) = s.hunks.map (·.toHunk) ∧
      (act s id).1.comments = s.comments) : d.KeepsPlace (d.onHunk act) := by
  unfold onHunk
  split
  · next id under =>
    obtain ⟨hunks, comments⟩ := same d.session id
    have rows : List.Forall₂ Row.SameButMarks d.view.stream.rows
        ((act d.session id).1.stream d.settings.showHelp).rows := by
      rw [← fresh.stream_eq]
      exact Session.sameButMarks_stream hunks.symm comments.symm d.settings.showHelp
    have acted : ({ d with session := (act d.session id).1 }.say
        (.notice (act d.session id).2)).InView :=
      ⟨inView.cursor, inView.above, inView.below, inView.anchor⟩
    rw [commit, acted.refreshView_eq rows.length_eq.symm]
    refine ⟨rfl, rfl, rfl, fun row => ?_⟩
    exact (View.tag?_eq_of_sameButMarks rows row).symm
  · exact ⟨rfl, rfl, rfl, fun _ => rfl⟩

end Desk

/-- Setting a mark leaves the diff and the comments as they are. -/
theorem Mark.same_set (mark : Mark) (s : Session) (id : HunkId) :
    (mark.set s id).1.hunks.map (·.toHunk) = s.hunks.map (·.toHunk) ∧
      (mark.set s id).1.comments = s.comments := by
  cases mark with
  | staging staging =>
    have hunks := Session.toHunk_changeFirst id (fun h => { h with staging }) (fun _ => rfl) s.hunks
    unfold set Session.setStaging
    dsimp only
    split
    · exact ⟨hunks, rfl⟩
    · exact ⟨rfl, rfl⟩
  | verdict verdict =>
    have hunks := Session.toHunk_changeFirst id (fun h => { h with verdict }) (fun _ => rfl) s.hunks
    unfold set Session.setVerdict
    dsimp only
    split
    · exact ⟨hunks, rfl⟩
    · exact ⟨rfl, rfl⟩

namespace Desk

/-- A key that marks hunks moves nothing, and asks for nothing; outside of normal mode it does
something else, which moves nothing either. -/
theorem InView.keepsPlace_press {d : Desk} (inView : d.InView) (fresh : d.Fresh) {k : KeyPress}
    {c : Char} (char : k.key = .char c) {mark : Mark} (key : Mark.ofKey? c = some mark)
    (stamp : Stamp) : d.KeepsPlace (d.press stamp k).1 ∧ (d.press stamp k).2 = none := by
  unfold press
  split
  · have spoken : ({ d with message := none } : Desk).InView :=
      ⟨inView.cursor, inView.above, inView.below, inView.anchor⟩
    obtain ⟨cursor, scroll, anchor, tags⟩ :=
      spoken.keepsPlace_onHunk ⟨fresh.rendered, fresh.view⟩ mark.same_set
    simp only [pressNormal, char, pressChar_of_mark key]
    exact ⟨⟨cursor, scroll, anchor, tags⟩, trivial⟩
  · exact ⟨⟨rfl, rfl, rfl, fun _ => rfl⟩, rfl⟩
  · simp only [pressPrompt, char]
    exact ⟨⟨rfl, rfl, rfl, fun _ => rfl⟩, trivial⟩
  · split <;> exact ⟨⟨rfl, rfl, rfl, fun _ => rfl⟩, rfl⟩

end Desk

namespace Loop

theorem inView_run (session : Session) (source : Source) (settings : Settings)
    (steps : List Step) : (run session source settings steps).desk.InView :=
  run_induction (Desk.inView_refreshView _) (fun _ _ turn before => turn.inView before) steps

theorem fresh_run (session : Session) (source : Source) (settings : Settings)
    (steps : List Step) : (run session source settings steps).desk.Fresh :=
  run_induction (Desk.fresh_refreshView _) (fun _ _ turn before => turn.fresh before) steps

/-- Marks never change what rows there are. Sessions with the same hunks and comments are shown with
the same rows, whatever the marks; and in all runs a key that marks hunks leaves the cursor, the
window and the selection on the same rows. -/
theorem marks_keep_rows :
    (∀ s t : Session, s.hunks.map (·.toHunk) = t.hunks.map (·.toHunk) → s.comments = t.comments →
      ∀ showHelp,
        List.Forall₂ Row.SameButMarks (s.render showHelp).2.rows (t.render showHelp).2.rows) ∧
    ∀ session source settings steps (k : KeyPress) c mark,
      k.key = .char c → Mark.ofKey? c = some mark → ∀ stamp world,
        let l := run session source settings steps
        l.desk.KeepsPlace (l.step (.press stamp k world)).desk := by
  refine ⟨fun s t hunks comments showHelp => Session.sameButMarks_stream hunks comments showHelp, ?_⟩
  intro session source settings steps k c mark char key stamp world l
  obtain ⟨place, asks⟩ := (inView_run session source settings steps).keepsPlace_press
    (fresh_run session source settings steps) char key stamp
  rw [desk_step_press asks]
  exact place

def noWorld : World where
  run _ := .notStarted "no command"
  write _ _ := .error "no file"
  now := {}

def oneChange (staging : Staging) (verdict : Verdict) : Session where
  hunks := [{ oldStart := .clamp 4, oldCount := .clamp 1, newStart := .clamp 4, newCount := .clamp 1,
              context := "", file := "p", lines := [⟨.deletion, "x"⟩, ⟨.addition, "y"⟩],
              staging, verdict }]
  comments := [.write ⟨0, {}⟩ ⟨⟨"p", .clamp 4⟩, "p", some ⟨.deletion, some (.clamp 4), none, "x"⟩⟩
    "why?" none]

/-- The change is shown line by line once it is staged, with the comment where it was. -/
theorem marks_keep_rows_oneChange :
    let s := oneChange .pending .pending
    let t := oneChange .staged .rejected
    let l := run s ⟨"/repo", .clamp 3, .unstaged⟩ {} [.press ⟨0, {}⟩ ⟨.char 'n', false, false⟩ noWorld]
    s.hunks.map (·.toHunk) = t.hunks.map (·.toHunk) ∧ s.comments = t.comments ∧
      List.Forall₂ Row.SameButMarks (s.render true).2.rows (t.render true).2.rows ∧
      Mark.ofKey? 's' = some (.staging .staged) ∧
      l.desk.KeepsPlace (l.step (.press ⟨0, {}⟩ ⟨.char 's', false, false⟩ noWorld)).desk := by
  intro s t l
  refine ⟨rfl, rfl, marks_keep_rows.1 s t rfl rfl true, rfl, ?_⟩
  exact marks_keep_rows.2 s _ _ _ ⟨.char 's', false, false⟩ 's' _ rfl rfl ⟨0, {}⟩ noWorld

end Loop

end HunkReview
