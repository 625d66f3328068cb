import HunkReview.Diff.Parser
import HunkReview.Review.Comment
import HunkReview.Review.Notice

/-!
# Review sessions

A session holds the hunks under review with their marks, the remembered marks, the comments and
the texts about the review as a whole. Each action says what it did; an action on a hunk that is
not in the diff is skipped and changes nothing. Where a diff has several hunks of one identity,
marks are set on the first.
-/

namespace HunkReview

/-- A hunk with its marks and the place of its header in the last rendered stream. -/
structure ReviewHunk extends Hunk where
  staging : Staging := .pending
  verdict : Verdict := .pending
  offset : Nat := 0
  deriving DecidableEq, Repr

def ReviewHunk.id (h : ReviewHunk) : HunkId :=
  h.toHunk.id

structure Session where
  hunks : List ReviewHunk := []
  stagings : Marks Staging := {}
  verdicts : Marks Verdict := {}
  comments : List Comment := []
  feedback : Option String := none
  request : Option String := none
  label : Option String := none
  refreshing : Bool := false
  deriving DecidableEq, Repr

namespace Session

/-- Begin the review of a source. A new source drops all but the request and the
refresh guard. Says whether the source is new. -/
def start (s : Session) (label : String) : Session × Bool :=
  if s.label = some label then (s, false)
  else ({ request := s.request, label := some label, refreshing := s.refreshing }, true)

/-- Put a new diff under review; remembered marks come back with their hunks. -/
def applyDiff (s : Session) (hunks : List Hunk) : Session :=
  { s with
    hunks := hunks.map fun h =>
      { toHunk := h, staging := s.stagings.get h.id, verdict := s.verdicts.get h.id } }

/-- Take the refresh guard, unless a refresh is under way. -/
def tryBeginRefresh (s : Session) : Session × Bool :=
  if s.refreshing then (s, false) else ({ s with refreshing := true }, true)

/-- The number of runs of neighbouring hunks of one file. -/
def countRuns : List String → Nat
  | [] => 0
  | [_] => 1
  | f :: g :: fs => if f = g then countRuns (g :: fs) else countRuns (g :: fs) + 1

def fileCount (s : Session) : Nat :=
  countRuns (s.hunks.map (·.file))

/-- Take the result of a fetch and release the guard. A failed fetch leaves no hunks. -/
def finishRefresh (s : Session) (result : Except FetchError String) : Session × Notice :=
  let s := { s with refreshing := false }
  match result with
  | .ok text =>
    let s := s.applyDiff (parseDiff text)
    (s, .refreshed s.hunks.length s.fileCount)
  | .error e => (s.applyDiff [], .refreshFailed e)

/-- Fetch and take a diff in one step, unless a refresh is under way. -/
def refresh {m : Type → Type} [Monad m] (fetch : m (Except FetchError String)) (s : Session) :
    m (Session × Notice) :=
  match s.tryBeginRefresh with
  | (s, false) => pure (s, .refreshBusy)
  | (s, true) => do
    let result ← fetch
    pure (s.finishRefresh result)

def hunk? (s : Session) (id : HunkId) : Option ReviewHunk :=
  s.hunks.find? (·.id == id)

def stagingOf (s : Session) (id : HunkId) : Option Staging :=
  (s.hunk? id).map fun _ => s.stagings.get id

def changeFirst (id : HunkId) (change : ReviewHunk → ReviewHunk) :
    List ReviewHunk → List ReviewHunk
  | [] => []
  | h :: hs => if h.id == id then change h :: hs else h :: changeFirst id change hs

def setStaging (s : Session) (id : HunkId) (staging : Staging) : Session × Notice :=
  if (s.hunk? id).isSome then
    ({ s with
        hunks := changeFirst id (fun h => { h with staging }) s.hunks
        stagings := s.stagings.set id staging },
      .hunkStaging id staging)
  else (s, .unknownHunk id)

def setVerdict (s : Session) (id : HunkId) (verdict : Verdict) : Session × Notice :=
  if (s.hunk? id).isSome then
    ({ s with
        hunks := changeFirst id (fun h => { h with verdict }) s.hunks
        verdicts := s.verdicts.set id verdict },
      .hunkVerdict id verdict)
  else (s, .unknownHunk id)

def stage (s : Session) (id : HunkId) : Session × Notice :=
  s.setStaging id .staged

def discard (s : Session) (id : HunkId) : Session × Notice :=
  s.setStaging id .discarded

def clearStaging (s : Session) (id : HunkId) : Session × Notice :=
  s.setStaging id .pending

def clearVerdict (s : Session) (id : HunkId) : Session × Notice :=
  s.setVerdict id .pending

def addComment (s : Session) (c : Comment) : Session × Notice :=
  if (s.hunk? c.hunk).isSome then
    ({ s with comments := s.comments ++ [c] },
      match c.label with
      | some label => .lineCommented c.file label
      | none => .hunkCommented c.hunk)
  else (s, .unknownHunk c.hunk)

/-- Set the overall feedback; a blank text clears it. -/
def setFeedback (s : Session) (text : String) : Session × Notice :=
  let feedback := Text.nonBlank? text
  ({ s with feedback }, if feedback.isSome then .feedbackSaved else .feedbackCleared)

def setRequest (s : Session) (text : String) : Session × Notice :=
  let request := Text.nonBlank? text
  ({ s with request }, if request.isSome then .requestSaved else .requestCleared)

def commentsFor (s : Session) (id : HunkId) : List Comment :=
  s.comments.filter (·.hunk == id)

def verdictCounts (s : Session) : List (Verdict × Nat) :=
  Verdict.all.map fun v => (v, s.hunks.countP (·.verdict == v))

def stagedCount (s : Session) : Nat :=
  s.hunks.countP (·.staging == .staged)

end Session

end HunkReview
