import HunkReview.Proofs.Desk.Fetches

/-! Draining the queue. What has come in while a desk was in use is taken without getting in its way:
what is open stays open, with what has been typed, and the review stays but for its hunks. -/
namespace HunkReview

namespace Desk

/-- What is open stays so, and of the session only the hunks and the refresh guard may be others. -/
structure Undisturbed (d e : Desk) : Prop where
  mode : e.mode = d.mode
  session : e.session =
    { d.session with hunks := e.session.hunks, refreshing := e.session.refreshing }

theorem Undisturbed.trans {d e f : Desk} (first : d.Undisturbed e) (second : e.Undisturbed f) :
    d.Undisturbed f where
  mode := second.mode.trans first.mode
  session := by rw [second.session, first.session]

theorem undisturbed_takeDiff (result : Except FetchError String) (d : Desk) :
    d.Undisturbed (d.takeDiff result) := by
  obtain ⟨cursor, anchor, scroll, shown⟩ := d.commit_eq (d.session.finishRefresh result)
  rw [takeDiff, shown]
  cases result <;> exact ⟨rfl, rfl⟩

theorem undisturbed_beginRefresh (d : Desk) : d.Undisturbed d.beginRefresh.1 where
  mode := by
    unfold beginRefresh Session.tryBeginRefresh
    cases d.session.refreshing <;> rfl
  session := by rw [session_beginRefresh]

end Desk

namespace Loop

theorem undisturbed_take (l : Loop) (e : Event) : l.desk.Undisturbed (l.take e).desk := by
  cases e with
  | diffFetched result => exact l.desk.undisturbed_takeDiff result
  | filesChanged =>
    rw [take_filesChanged]
    exact l.desk.undisturbed_beginRefresh

theorem undisturbed_foldl_take (l : Loop) (queue : List Event) :
    l.desk.Undisturbed (queue.foldl take l).desk := by
  induction queue generalizing l with
  | nil => exact ⟨rfl, rfl⟩
  | cons e queue ih => exact (l.undisturbed_take e).trans (ih (l.take e))

theorem undisturbed_drain (l : Loop) : l.desk.Undisturbed l.drain.desk :=
  undisturbed_foldl_take { l with queue := [] } l.queue

end Loop

end HunkReview
