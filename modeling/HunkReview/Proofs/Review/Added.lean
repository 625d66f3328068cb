import HunkReview.Proofs.Review.Target

/-! Comments against the log. The comments of a hunk are those that were added to it since the review
began, in the order in which they were. -/
namespace HunkReview

def Action.comment? (hunk : HunkId) : Action → Option Comment
  | addComment c => if c.hunk = hunk then some c else none
  | _ => none

/-- The comments that applied actions put on the hunk since the review began. -/
def addedComments (hunk : HunkId) (log : List Entry) : List Comment :=
  ((sinceStart log).filter (·.applied)).filterMap (·.action.comment? hunk)

def Entry.commentsAfter (e : Entry) (hunk : HunkId) (before : List Comment) : List Comment :=
  if e.begins then [] else if e.applied then before ++ (e.action.comment? hunk).toList else before

theorem addedComments_concat (hunk : HunkId) (log : List Entry) (e : Entry) :
    addedComments hunk (log ++ [e]) = e.commentsAfter hunk (addedComments hunk log) := by
  unfold addedComments sinceStart Entry.commentsAfter
  rw [List.rtakeWhile_concat]
  by_cases begins : e.begins
  · simp [begins]
  · by_cases applied : e.applied
    · cases comment : e.action.comment? hunk <;> simp [begins, applied, comment]
    · simp [begins, applied]

namespace Session

theorem comments_setStaging (s : Session) (id : HunkId) (staging : Staging) :
    (s.setStaging id staging).1.comments = s.comments := by
  unfold setStaging
  split <;> rfl

theorem comments_setVerdict (s : Session) (id : HunkId) (verdict : Verdict) :
    (s.setVerdict id verdict).1.comments = s.comments := by
  unfold setVerdict
  split <;> rfl

theorem comments_tryBeginRefresh (s : Session) : s.tryBeginRefresh.1.comments = s.comments := by
  unfold tryBeginRefresh
  split <;> rfl

theorem comments_finishRefresh (s : Session) (result : Except FetchError String) :
    (s.finishRefresh result).1.comments = s.comments := by
  cases result <;> rfl

theorem comments_refresh (s : Session) (result : Except FetchError String) :
    (Id.run (s.refresh (pure result))).1.comments = s.comments := by
  unfold refresh tryBeginRefresh
  cases s.refreshing with
  | false => exact comments_finishRefresh _ result
  | true => rfl

theorem commentsFor_addComment (s : Session) (c : Comment) (hunk : HunkId) :
    (s.addComment c).1.commentsFor hunk =
      if (s.addComment c).2.applied then
        s.commentsFor hunk ++ (if c.hunk = hunk then some c else none).toList
      else s.commentsFor hunk := by
  by_cases known : (s.hunk? c.hunk).isSome
  · obtain ⟨applied, added⟩ := s.appended_addComment known
    by_cases same : c.hunk = hunk <;> simp [added, applied, commentsFor, same]
  · simp [addComment, known, Notice.applied]

end Session

/-- The comments of a hunk after an action are what the action's entry says. -/
theorem Action.commentsFor_run (s : Session) (a : Action) (hunk : HunkId) :
    (a.run s).1.commentsFor hunk = (a.entry s).commentsAfter hunk (s.commentsFor hunk) := by
  have untouched : ∀ {t : Session}, t.comments = s.comments → (a.entry s).begins = false →
      a.comment? hunk = none →
      t.commentsFor hunk = (a.entry s).commentsAfter hunk (s.commentsFor hunk) := by
    intro t kept goesOn none
    have nothing : (a.entry s).action.comment? hunk = Option.none := none
    simp [Session.commentsFor, kept, Entry.commentsAfter, goesOn, nothing]
  cases a with
  | start label =>
    by_cases same : s.label = some label
    · simp [run, entry, Session.start, same, Entry.commentsAfter, Entry.begins, Entry.applied]
    · simp [run, entry, Session.start, same, Entry.commentsAfter, Entry.begins, Session.commentsFor]
  | addComment c => exact s.commentsFor_addComment c hunk
  | tryBeginRefresh => exact untouched s.comments_tryBeginRefresh rfl rfl
  | finishRefresh result => exact untouched (s.comments_finishRefresh result) rfl rfl
  | refresh result => exact untouched (s.comments_refresh result) rfl rfl
  | stage id | discard id | clearStaging id => exact untouched (s.comments_setStaging id _) rfl rfl
  | setVerdict id verdict => exact untouched (s.comments_setVerdict id verdict) rfl rfl
  | clearVerdict id => exact untouched (s.comments_setVerdict id _) rfl rfl
  | applyDiff text | setFeedback text | setRequest text | render showHelp => exact untouched rfl rfl rfl

theorem History.commentsFor_of (actions : List Action) (hunk : HunkId) :
    (of actions).session.commentsFor hunk = addedComments hunk (of actions).log := by
  apply of_induction (fun r => r.session.commentsFor hunk = addedComments hunk r.log)
  · rfl
  · intro r a before
    rw [step, addedComments_concat, ← before]
    exact a.commentsFor_run r.session hunk

end HunkReview
