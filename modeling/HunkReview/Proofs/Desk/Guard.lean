import HunkReview.Proofs.Desk.Keys

/-! The refresh guard. A key that starts a fetch takes the guard, which was free; no other key and no
reply touches it. A fetched diff releases it. -/
namespace HunkReview

namespace Session

@[simp] theorem refreshing_setStaging (s : Session) (id : HunkId) (mark : Staging) :
    (s.setStaging id mark).1.refreshing = s.refreshing := by
  unfold setStaging
  split <;> rfl

@[simp] theorem refreshing_setVerdict (s : Session) (id : HunkId) (verdict : Verdict) :
    (s.setVerdict id verdict).1.refreshing = s.refreshing := by
  unfold setVerdict
  split <;> rfl

@[simp] theorem refreshing_addComment (s : Session) (c : Comment) :
    (s.addComment c).1.refreshing = s.refreshing := by
  unfold addComment
  split <;> rfl

@[simp] theorem refreshing_finishRefresh (s : Session) (result : Except FetchError String) :
    (s.finishRefresh result).1.refreshing = false := by
  cases result <;> rfl

end Session

theorem Mark.refreshing_set (mark : Mark) (s : Session) (id : HunkId) :
    (mark.set s id).1.refreshing = s.refreshing := by
  cases mark <;> simp [set]

namespace Desk

@[simp] theorem session_moveTo (row : Nat) (d : Desk) : (d.moveTo row).session = d.session := by
  obtain ⟨scroll, shown⟩ := revealCursor_eq { d with cursor := min row d.view.lastRow }
  rw [moveTo, shown]

@[simp] theorem session_setViewport (rows : Nat) (d : Desk) :
    (d.setViewport rows).session = d.session := by
  obtain ⟨scroll, shown⟩ := revealCursor_eq { d with viewport := rows }
  rw [setViewport, shown]

@[simp] theorem session_say (m : Message) (d : Desk) : (d.say m).session = d.session :=
  rfl

@[simp] theorem refreshing_commit (d : Desk) (result : Session × Notice) :
    (d.commit result).session.refreshing = result.1.refreshing := by
  rw [session_commit]
  rfl

/-- Acting on a hunk leaves the guard as the action does. -/
theorem refreshing_onHunk {act : Session → HunkId → Session × Notice}
    (kept : ∀ (s : Session) (id : HunkId), (act s id).1.refreshing = s.refreshing) (d : Desk) :
    (d.onHunk act).session.refreshing = d.session.refreshing := by
  unfold onHunk
  split <;> simp [kept]

@[simp] theorem session_toggleSelection (d : Desk) : d.toggleSelection.session = d.session := by
  unfold toggleSelection
  split
  · rfl
  · split <;> rfl

@[simp] theorem session_openPrompt (purpose : Purpose) (text : String) (d : Desk) :
    (d.openPrompt purpose text).session = d.session :=
  rfl

@[simp] theorem session_startComment (d : Desk) : d.startComment.session = d.session := by
  unfold startComment
  split <;> rfl

@[simp] theorem refreshing_submit (stamp : Stamp) (purpose : Purpose) (text : String) (d : Desk) :
    (d.submit stamp purpose text).session.refreshing = d.session.refreshing := by
  unfold submit
  split
  · split <;> simp
  · rw [refreshing_commit]; rfl
  · rw [refreshing_commit]; rfl

@[simp] theorem refreshing_pressPrompt (stamp : Stamp) (k : KeyPress) (purpose : Purpose)
    (editor : Editor) (d : Desk) :
    (d.pressPrompt stamp k purpose editor).session.refreshing = d.session.refreshing := by
  unfold pressPrompt
  split
  · rfl
  · split
    · rfl
    · exact refreshing_submit ..
  · rfl

/-- Beginning a refresh takes the guard, which may be taken already. -/
theorem session_beginRefresh (d : Desk) :
    d.beginRefresh.1.session = { d.session with refreshing := true } := by
  unfold beginRefresh Session.tryBeginRefresh
  cases busy : d.session.refreshing with
  | true =>
    have taken : { d.session with refreshing := true } = d.session := by rw [← busy]
    exact taken.symm
  | false => rfl

/-- Beginning a refresh takes the guard if it is free, and says so. -/
theorem refreshing_beginRefresh (d : Desk) :
    d.beginRefresh.1.session.refreshing = true ∧ d.beginRefresh.2 = !d.session.refreshing := by
  refine ⟨by rw [session_beginRefresh], ?_⟩
  unfold beginRefresh Session.tryBeginRefresh
  cases d.session.refreshing <;> rfl

theorem session_requestRefresh (d : Desk) :
    d.requestRefresh.1.session = { d.session with refreshing := true } := by
  have begun := d.session_beginRefresh
  unfold requestRefresh
  split <;> simp_all

theorem refreshing_requestRefresh (d : Desk) : d.requestRefresh.1.session.refreshing = true := by
  rw [session_requestRefresh]

/-- A desk is opened with the guard as it is. -/
@[simp] theorem refreshing_start (session : Session) (source : Source) (settings : Settings) :
    (start session source settings).session.refreshing = session.refreshing := by
  obtain ⟨cursor, anchor, scroll, shown⟩ :=
    refreshView_eq { session, source, settings, view := .ofStream ⟨[]⟩ }
  rw [start, shown]
  rfl

/-- What has been done to the guard when a request is made: a fetch is asked for only when the guard
was free and has been taken for it. -/
structure Guards (before after : Desk) (request : Option Request) : Prop where
  fetch : request = some .fetchDiff → before.session.refreshing = false ∧ after.session.refreshing = true
  other : request ≠ some .fetchDiff → after.session.refreshing = before.session.refreshing

theorem guards_of_kept {before after : Desk} {request : Option Request}
    (kept : after.session.refreshing = before.session.refreshing)
    (other : request ≠ some .fetchDiff) : before.Guards after request :=
  ⟨fun fetch => absurd fetch other, fun _ => kept⟩

theorem guards_requestRefresh (d : Desk) : d.Guards d.requestRefresh.1 d.requestRefresh.2 := by
  obtain ⟨taken, free⟩ := d.refreshing_beginRefresh
  unfold requestRefresh
  split
  · next e begun =>
    rw [begun] at taken free
    exact ⟨fun _ => ⟨by simpa using free, taken⟩, fun other => absurd rfl other⟩
  · next e begun =>
    rw [begun] at taken free
    exact guards_of_kept (taken.trans (by simpa using free)) (by simp)

theorem Effect.guards {d : Desk} {key : Key} {after : Desk × Option Request}
    (effect : d.Effect key after) :
    d.Guards after.1 after.2 := by
  cases effect with
  | refreshing => exact d.guards_requestRefresh
  | marked c mark => exact guards_of_kept (refreshing_onHunk mark.refreshing_set d) (by simp)
  | requested request other => exact guards_of_kept rfl (by simpa using other)
  | _ => exact guards_of_kept (by simp) (by simp)

theorem guards_press (stamp : Stamp) (k : KeyPress) (d : Desk) :
    d.Guards (d.press stamp k).1 (d.press stamp k).2 := by
  unfold press
  split
  · obtain ⟨fetch, other⟩ := (effect_pressNormal k { d with message := none }).guards
    exact ⟨fetch, other⟩
  · exact guards_of_kept rfl (by simp)
  · exact guards_of_kept (refreshing_pressPrompt ..) (by simp)
  · split <;> exact guards_of_kept rfl (by simp)

@[simp] theorem session_fulfil (world : World) (d : Desk) (request : Option Request) :
    (d.fulfil world request).session = d.session := by
  unfold fulfil
  split
  · generalize Id.run _ = result
    cases result <;> rfl
  all_goals rfl

@[simp] theorem session_fitScreen (width height : Nat) (d : Desk) :
    (d.fitScreen width height).session = d.session := by
  unfold fitScreen
  split <;> rfl

@[simp] theorem refreshing_takeDiff (result : Except FetchError String) (d : Desk) :
    (d.takeDiff result).session.refreshing = false := by
  rw [takeDiff, refreshing_commit, Session.refreshing_finishRefresh]

end Desk

end HunkReview
