import HunkReview.Proofs.Diff.OneLine
import HunkReview.Proofs.Review.History

/-! The hunks under review are the hunks of some diff. Actions replace all of them or none, and
otherwise change only their marks and their places in the rendered text. -/
namespace HunkReview

def Session.diff (s : Session) : List Hunk :=
  s.hunks.map (·.toHunk)

namespace Session

theorem toHunk_changeFirst (id : HunkId) (change : ReviewHunk → ReviewHunk)
    (same : ∀ h, (change h).toHunk = h.toHunk) (hs : List ReviewHunk) :
    (changeFirst id change hs).map (·.toHunk) = hs.map (·.toHunk) := by
  induction hs with
  | nil => rfl
  | cons h hs ih =>
    rw [changeFirst]
    split
    · rw [List.map_cons, List.map_cons, same]
    · rw [List.map_cons, List.map_cons, ih]

theorem toHunk_placeHunks (hs : List ReviewHunk) (offsets : List Nat) :
    (placeHunks hs offsets).map (·.toHunk) = hs.map (·.toHunk) :=
  map_placeHunks _ (fun _ _ => rfl) hs offsets

theorem diff_applyDiff (s : Session) (hunks : List Hunk) : (s.applyDiff hunks).diff = hunks := by
  rw [diff, applyDiff, List.map_map]
  exact List.map_id hunks

def IsRead (s : Session) : Prop :=
  ∃ text, s.diff = parseDiff text

theorem Change.isRead {s t : Session} (change : s.Change t) (read : s.IsRead) : t.IsRead := by
  obtain ⟨before, hunks⟩ := read
  cases change with
  | nothing => exact ⟨before, hunks⟩
  | begun label => exact ⟨"", rfl⟩
  | guarded => exact ⟨before, hunks⟩
  | replaced text refreshing => exact ⟨text, s.diff_applyDiff (parseDiff text)⟩
  | staged id staging known =>
    have same := toHunk_changeFirst id (fun h => { h with staging }) (fun _ => rfl) s.hunks
    exact ⟨before, same.trans hunks⟩
  | judged id verdict known =>
    have same := toHunk_changeFirst id (fun h => { h with verdict }) (fun _ => rfl) s.hunks
    exact ⟨before, same.trans hunks⟩
  | commented c known => exact ⟨before, hunks⟩
  | answered feedback => exact ⟨before, hunks⟩
  | asked request => exact ⟨before, hunks⟩
  | placed offsets => exact ⟨before, (toHunk_placeHunks s.hunks offsets).trans hunks⟩

end Session

namespace History

theorem isRead_of (actions : List Action) : (of actions).session.IsRead :=
  of_session_induction Session.IsRead ⟨"", rfl⟩ (fun _ _ change => change.isRead) actions

/-- So the texts of the hunks under review fit on lines. -/
theorem onLines_of (actions : List Action) :
    ∀ h ∈ (of actions).session.hunks, h.toHunk.OnLines := by
  obtain ⟨text, hunks⟩ := isRead_of actions
  intro h member
  have inside : h.toHunk ∈ (of actions).session.diff := List.mem_map_of_mem member
  exact onLines_parseDiff text h.toHunk (hunks ▸ inside)

end History

end HunkReview
