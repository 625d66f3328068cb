import HunkReview.Stream.Render
import Mathlib.Data.List.Induction

/-! What can happen to a session, one action after the other. Diffs come as texts, so the hunks of
a session are always read from one. The log keeps each action with what it answered. -/
namespace HunkReview

inductive Action where
  | start (label : String)
  | applyDiff (text : String)
  | tryBeginRefresh
  | finishRefresh (result : Except FetchError String)
  | refresh (result : Except FetchError String)
  | stage (id : HunkId)
  | discard (id : HunkId)
  | clearStaging (id : HunkId)
  | setVerdict (id : HunkId) (verdict : Verdict)
  | clearVerdict (id : HunkId)
  | addComment (c : Comment)
  | setFeedback (text : String)
  | setRequest (text : String)
  | render (showHelp : Bool)

inductive Answer where
  | done
  | told (yes : Bool)
  | noticed (notice : Notice)
  | shown (stream : Stream)

def Action.run (s : Session) : Action → Session × Answer
  | start label => (s.start label).map id .told
  | applyDiff text => (s.applyDiff (parseDiff text), .done)
  | tryBeginRefresh => s.tryBeginRefresh.map id .told
  | finishRefresh result => (s.finishRefresh result).map id .noticed
  | refresh result => (Id.run (s.refresh (pure result))).map id .noticed
  | stage hunk => (s.stage hunk).map id .noticed
  | discard hunk => (s.discard hunk).map id .noticed
  | clearStaging hunk => (s.clearStaging hunk).map id .noticed
  | setVerdict hunk verdict => (s.setVerdict hunk verdict).map id .noticed
  | clearVerdict hunk => (s.clearVerdict hunk).map id .noticed
  | addComment c => (s.addComment c).map id .noticed
  | setFeedback text => (s.setFeedback text).map id .noticed
  | setRequest text => (s.setRequest text).map id .noticed
  | render showHelp => (s.render showHelp).map id .shown

/-- All that an action can make of a session. A failed fetch reads as an empty diff. -/
inductive Session.Change (s : Session) : Session → Prop
  | nothing : Change s s
  | begun (label : String) :
    Change s { request := s.request, label := some label, refreshing := s.refreshing }
  | guarded : Change s { s with refreshing := true }
  | replaced (text : String) (refreshing : Bool) :
    Change s { s.applyDiff (parseDiff text) with refreshing }
  | staged (id : HunkId) (staging : Staging) (known : (s.hunk? id).isSome) :
    Change s { s with
      hunks := changeFirst id (fun h => { h with staging }) s.hunks
      stagings := s.stagings.set id staging }
  | judged (id : HunkId) (verdict : Verdict) (known : (s.hunk? id).isSome) :
    Change s { s with
      hunks := changeFirst id (fun h => { h with verdict }) s.hunks
      verdicts := s.verdicts.set id verdict }
  | commented (c : Comment) (known : (s.hunk? c.hunk).isSome) :
    Change s { s with comments := s.comments ++ [c] }
  | answered (feedback : Option String) : Change s { s with feedback }
  | asked (request : Option String) : Change s { s with request }
  | placed (offsets : List Nat) : Change s { s with hunks := placeHunks s.hunks offsets }

namespace Session

theorem change_start (s : Session) (label : String) : s.Change (s.start label).1 := by
  unfold start
  split
  · exact .nothing
  · exact .begun label

theorem change_tryBeginRefresh (s : Session) : s.Change s.tryBeginRefresh.1 := by
  unfold tryBeginRefresh
  split
  · exact .nothing
  · exact .guarded

theorem change_finishRefresh (s : Session) (result : Except FetchError String) :
    s.Change (s.finishRefresh result).1 := by
  cases result with
  | ok text => exact .replaced text false
  | error e => exact .replaced "" false

theorem change_refresh (s : Session) (result : Except FetchError String) :
    s.Change (Id.run (s.refresh (pure result))).1 := by
  unfold refresh tryBeginRefresh
  cases busy : s.refreshing with
  | true => exact .nothing
  | false =>
    cases result with
    | ok text => exact .replaced text false
    | error e => exact .replaced "" false

theorem change_setStaging (s : Session) (id : HunkId) (staging : Staging) :
    s.Change (s.setStaging id staging).1 := by
  unfold setStaging
  split
  · next known => exact .staged id staging known
  · exact .nothing

theorem change_setVerdict (s : Session) (id : HunkId) (verdict : Verdict) :
    s.Change (s.setVerdict id verdict).1 := by
  unfold setVerdict
  split
  · next known => exact .judged id verdict known
  · exact .nothing

theorem change_addComment (s : Session) (c : Comment) : s.Change (s.addComment c).1 := by
  unfold addComment
  split
  · next known => exact .commented c known
  · exact .nothing

end Session

theorem Action.change_run (s : Session) (a : Action) : s.Change (a.run s).1 := by
  cases a with
  | start label => exact s.change_start label
  | applyDiff text => exact .replaced text s.refreshing
  | tryBeginRefresh => exact s.change_tryBeginRefresh
  | finishRefresh result => exact s.change_finishRefresh result
  | refresh result => exact s.change_refresh result
  | stage id => exact s.change_setStaging id _
  | discard id => exact s.change_setStaging id _
  | clearStaging id => exact s.change_setStaging id _
  | setVerdict id verdict => exact s.change_setVerdict id verdict
  | clearVerdict id => exact s.change_setVerdict id _
  | addComment c => exact s.change_addComment c
  | setFeedback text => exact .answered _
  | setRequest text => exact .asked _
  | render showHelp => exact .placed _

structure Entry where
  action : Action
  answer : Answer

def Action.entry (s : Session) (a : Action) : Entry :=
  ⟨a, (a.run s).2⟩

structure History where
  session : Session := {}
  log : List Entry := []

namespace History

def step (r : History) (a : Action) : History :=
  ⟨(a.run r.session).1, r.log ++ [a.entry r.session]⟩

def of (actions : List Action) : History :=
  actions.foldl step {}

@[simp] theorem of_concat (actions : List Action) (a : Action) :
    of (actions ++ [a]) = (of actions).step a := by
  rw [of, List.foldl_append, List.foldl_cons, List.foldl_nil, of]

/-- What holds of a new session and outlives every action holds in every history. -/
theorem of_induction (holds : History → Prop) (new : holds {})
    (kept : ∀ r a, holds r → holds (r.step a)) (actions : List Action) : holds (of actions) := by
  induction actions using List.reverseRecOn with
  | nil => exact new
  | append_singleton actions a ih =>
    rw [of_concat]
    exact kept _ a ih

/-- The same for what is said of the session alone, change by change. -/
theorem of_session_induction (holds : Session → Prop) (new : holds {})
    (kept : ∀ s t, s.Change t → holds s → holds t) (actions : List Action) :
    holds (of actions).session :=
  of_induction (fun r => holds r.session) new
    (fun r a before => kept _ _ (a.change_run r.session) before) actions

end History

end HunkReview
