import HunkReview.Proofs.Desk.Run
import HunkReview.Proofs.Stream.Origin
import HunkReview.Proofs.Stream.Rerender

/-! The view is never stale. Through all runs a desk shows its session as rendering it anew would, so a
key acts on the hunk that is shown under the cursor. -/
namespace HunkReview

namespace Desk

/-- Rendering the session anew would move no hunk and give the rows that are shown. -/
structure Fresh (d : Desk) : Prop where
  rendered : d.session.render d.settings.showHelp = (d.session, d.view.stream)
  view : d.view = .ofStream d.view.stream

/-- Showing the cursor only scrolls. -/
theorem revealCursor_eq (d : Desk) : ∃ scroll, d.revealCursor = { d with scroll } := by
  unfold revealCursor
  dsimp only
  split
  · exact ⟨_, rfl⟩
  · split
    · exact ⟨_, rfl⟩
    · exact ⟨d.scroll, rfl⟩

theorem refreshView_eq (d : Desk) : ∃ cursor anchor scroll, d.refreshView =
    { d with
      session := (d.session.render d.settings.showHelp).1
      view := .ofStream (d.session.render d.settings.showHelp).2
      cursor, anchor, scroll } := by
  obtain ⟨scroll, shown⟩ := revealCursor_eq
    { d with
      session := (d.session.render d.settings.showHelp).1
      view := .ofStream (d.session.render d.settings.showHelp).2
      cursor := min d.cursor (View.ofStream (d.session.render d.settings.showHelp).2).lastRow
      anchor := d.anchor.filter (· < (View.ofStream (d.session.render d.settings.showHelp).2).size) }
  exact ⟨_, _, scroll, shown⟩

/-- What is committed is said, and shown. -/
theorem commit_eq (d : Desk) (result : Session × Notice) : ∃ cursor anchor scroll, d.commit result =
    { d with
      session := (result.1.render d.settings.showHelp).1
      view := .ofStream (result.1.render d.settings.showHelp).2
      message := some (.notice result.2)
      cursor, anchor, scroll } := by
  have shown := refreshView_eq ({ d with session := result.1 }.say (.notice result.2))
  exact shown

theorem session_commit (d : Desk) (result : Session × Notice) :
    (d.commit result).session = (result.1.render d.settings.showHelp).1 := by
  obtain ⟨cursor, anchor, scroll, shown⟩ := d.commit_eq result
  rw [shown]

theorem fresh_refreshView (d : Desk) : d.refreshView.Fresh := by
  obtain ⟨cursor, anchor, scroll, shown⟩ := d.refreshView_eq
  rw [shown]
  exact ⟨d.session.render_render d.settings.showHelp, rfl⟩

/-- Taking the refresh guard does not show. -/
theorem Fresh.guarded {d : Desk} (fresh : d.Fresh) :
    { d with session := { d.session with refreshing := true } }.Fresh where
  rendered := by
    rw [Session.render_guarded, fresh.rendered]
  view := fresh.view

theorem Turn.settings_eq {d e : Desk} (turn : d.Turn e) : e.settings = d.settings := by
  cases turn with
  | moved row =>
    obtain ⟨scroll, shown⟩ := revealCursor_eq { d with cursor := min row d.view.lastRow }
    rw [moveTo, shown]
  | resized rows =>
    obtain ⟨scroll, shown⟩ := revealCursor_eq { d with viewport := rows }
    rw [setViewport, shown]
  | acted t change =>
    obtain ⟨cursor, anchor, scroll, shown⟩ := refreshView_eq { d with session := t }
    rw [shown]
  | _ => rfl

theorem Turn.fresh {d e : Desk} (turn : d.Turn e) (fresh : d.Fresh) : e.Fresh := by
  cases turn with
  | moved row =>
    obtain ⟨scroll, shown⟩ := revealCursor_eq { d with cursor := min row d.view.lastRow }
    rw [moveTo, shown]
    exact ⟨fresh.rendered, fresh.view⟩
  | resized rows =>
    obtain ⟨scroll, shown⟩ := revealCursor_eq { d with viewport := rows }
    rw [setViewport, shown]
    exact ⟨fresh.rendered, fresh.view⟩
  | acted t change => exact fresh_refreshView _
  | guarded => exact fresh.guarded
  | _ => exact ⟨fresh.rendered, fresh.view⟩

theorem Fresh.stream_eq {d : Desk} (fresh : d.Fresh) :
    d.session.stream d.settings.showHelp = d.view.stream :=
  congrArg Prod.snd fresh.rendered

/-- A row that is shown is one of the session as it stands, not of an earlier one. -/
theorem Fresh.origin {d : Desk} (fresh : d.Fresh) {row : Nat} {tag : Tag}
    (there : d.view.tag? row = some tag) : ∃ r, r.tag = tag ∧ d.session.Origin r := by
  obtain ⟨r, found, rfl⟩ := Option.map_eq_some_iff.mp there
  have member : r ∈ (d.session.stream d.settings.showHelp).rows :=
    fresh.stream_eq ▸ List.mem_of_getElem? found
  exact ⟨r, rfl, Session.origin_of_mem_stream member⟩

/-- The hunk under the cursor is in the session. -/
theorem Fresh.known {d : Desk} (fresh : d.Fresh) {id : HunkId} (under : d.hunk? = some id) :
    (d.session.hunk? id).isSome := by
  obtain ⟨tag, here, about⟩ := Option.bind_eq_some_iff.mp under
  obtain ⟨r, rfl, origin⟩ := fresh.origin here
  obtain ⟨h, inside, same⟩ := origin.hunk_mem about
  exact List.find?_isSome.mpr ⟨h, inside, by simp [same]⟩

end Desk

/-! ### Keys that mark the hunk under the cursor -/

inductive Mark where
  | staging (staging : Staging)
  | verdict (verdict : Verdict)

namespace Mark

def ofKey? : Char → Option Mark
  | 's' => some (staging .staged)
  | 'd' => some (staging .discarded)
  | 'u' => some (staging .pending)
  | '1' => some (verdict .approved)
  | '2' => some (verdict .needsChanges)
  | '3' => some (verdict .rejected)
  | '4' => some (verdict .question)
  | '0' => some (verdict .pending)
  | _ => none

def set : Mark → Session → HunkId → Session × Notice
  | staging mark, s, id => s.setStaging id mark
  | verdict mark, s, id => s.setVerdict id mark

def notice (id : HunkId) : Mark → Notice
  | staging mark => .hunkStaging id mark
  | verdict mark => .hunkVerdict id mark

theorem applied_notice (id : HunkId) (mark : Mark) : (mark.notice id).applied := by
  cases mark <;> rfl

theorem notice_set (mark : Mark) {s : Session} {id : HunkId} (known : (s.hunk? id).isSome) :
    (mark.set s id).2 = mark.notice id := by
  cases mark with
  | staging mark =>
    rw [set, Session.setStaging, if_pos known]
    rfl
  | verdict mark =>
    rw [set, Session.setVerdict, if_pos known]
    rfl

end Mark

namespace Desk

theorem pressChar_of_mark {c : Char} {mark : Mark} (key : Mark.ofKey? c = some mark) (control : Bool)
    (d : Desk) : d.pressChar control c = (d.onHunk mark.set, none) := by
  unfold Mark.ofKey? at key
  split at key
  case h_9 => cases key
  all_goals
    obtain rfl := Option.some.inj key
    rfl

/-- In normal mode a key that sets a mark acts on the hunk under the cursor and asks for nothing. -/
theorem press_of_mark {d : Desk} (normal : d.mode = .normal) {k : KeyPress} {c : Char}
    (char : k.key = .char c) {mark : Mark} (key : Mark.ofKey? c = some mark) (stamp : Stamp) :
    d.press stamp k = ({ d with message := none }.onHunk mark.set, none) := by
  simp only [press, normal, pressNormal, char, pressChar_of_mark key]

section

variable {d : Desk} {id : HunkId} (under : d.hunk? = some id)
include under

theorem message_onHunk (act : Session → HunkId → Session × Notice) :
    (d.onHunk act).message = some (.notice (act d.session id).2) := by
  obtain ⟨cursor, anchor, scroll, shown⟩ := d.commit_eq (act d.session id)
  simp only [onHunk, under, shown]

theorem session_onHunk (act : Session → HunkId → Session × Notice) :
    (d.onHunk act).session = ((act d.session id).1.render d.settings.showHelp).1 := by
  simp only [onHunk, under, session_commit]

variable (normal : d.mode = .normal) {k : KeyPress} {c : Char} (char : k.key = .char c) {mark : Mark}
  (key : Mark.ofKey? c = some mark)
include normal char key

/-- The session is shown with the mark set. -/
theorem session_press_of_mark (stamp : Stamp) :
    (d.press stamp k).1.session = ((mark.set d.session id).1.render d.settings.showHelp).1 := by
  rw [press_of_mark normal char key]
  exact session_onHunk (d := { d with message := none }) under mark.set

/-- A key that marks a hunk marks the one under the cursor. -/
theorem Fresh.message_press (fresh : d.Fresh) (stamp : Stamp) :
    (d.press stamp k).1.message = some (.notice (mark.notice id)) ∧ (d.press stamp k).2 = none := by
  have message : ({ d with message := none }.onHunk mark.set).message = _ :=
    message_onHunk (d := { d with message := none }) under mark.set
  rw [press_of_mark normal char key]
  exact ⟨message.trans (by rw [mark.notice_set (fresh.known under)]), rfl⟩

end

end Desk

namespace Loop

/-- The desk shows its session with the settings it was opened with, and the keys that mark the hunk
under the cursor do so: they say so, and the session is shown with the mark. -/
structure UpToDate (settings : Settings) (l : Loop) : Prop where
  settings : l.desk.settings = settings
  fresh : l.desk.Fresh
  marks : l.desk.mode = .normal → ∀ id, l.desk.hunk? = some id →
    ∀ k c mark, k.key = .char c → Mark.ofKey? c = some mark → ∀ stamp world,
      (l.step (.press stamp k world)).desk.message = some (.notice (mark.notice id)) ∧
        (mark.notice id).applied ∧
        (l.step (.press stamp k world)).desk.session =
          ((mark.set l.desk.session id).1.render l.desk.settings.showHelp).1

/-- A key that asks for nothing only changes the desk. -/
theorem desk_step_press {l : Loop} {stamp : Stamp} {k : KeyPress}
    (asks : (l.desk.press stamp k).2 = none) (world : World) :
    (l.step (.press stamp k world)).desk = (l.desk.press stamp k).1 := by
  have pressed : l.desk.press stamp k = ((l.desk.press stamp k).1, none) := Prod.ext rfl asks
  simp only [step, Loop.press]
  rw [pressed]
  rfl

theorem settings_run (session : Session) (source : Source) (settings : Settings)
    (steps : List Step) : (run session source settings steps).desk.settings = settings := by
  have opened : (Desk.start session source settings).settings = settings := by
    obtain ⟨cursor, anchor, scroll, shown⟩ :=
      Desk.refreshView_eq { session, source, settings, view := .ofStream ⟨[]⟩ }
    rw [Desk.start, shown]
  have kept : ∀ d e : Desk, d.Turn e → d.settings = settings → e.settings = settings :=
    fun d e turn before => turn.settings_eq.trans before
  exact run_induction opened kept steps

/-- Whatever happens to an opened desk, its view is not stale. -/
theorem upToDate_run (session : Session) (source : Source) (settings : Settings)
    (steps : List Step) : (run session source settings steps).UpToDate settings := by
  have fresh : (run session source settings steps).desk.Fresh :=
    run_induction (Desk.fresh_refreshView _) (fun _ _ turn before => turn.fresh before) steps
  refine ⟨settings_run session source settings steps, fresh, ?_⟩
  intro normal id under k c mark char key stamp world
  obtain ⟨message, asks⟩ := fresh.message_press under normal char key stamp
  rw [desk_step_press asks]
  exact ⟨message, mark.applied_notice id,
    Desk.session_press_of_mark under normal char key stamp⟩

end Loop

end HunkReview
