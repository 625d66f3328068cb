import HunkReview.Review.Mark
import HunkReview.Source.Fetch

/-!
# Notices

What an action on a review did, or why it was skipped, with its wording.
-/

namespace HunkReview

inductive Notice where
  | unknownHunk (id : HunkId)
  | hunkStaging (id : HunkId) (staging : Staging)
  | hunkVerdict (id : HunkId) (verdict : Verdict)
  | lineCommented (file label : String)
  | hunkCommented (id : HunkId)
  | feedbackSaved
  | feedbackCleared
  | requestSaved
  | requestCleared
  | refreshed (hunks files : Nat)
  | refreshFailed (error : FetchError)
  | refreshBusy
  | exported (path : String)
  | exportFailed (path reason : String)
  | commentBlank
  deriving DecidableEq, Repr

namespace Notice

def applied : Notice → Bool
  | unknownHunk _ | refreshFailed _ | refreshBusy | exportFailed _ _ | commentBlank => false
  | _ => true

def message : Notice → String
  | unknownHunk id => "No hunk " ++ id.text ++ " in the current diff"
  | hunkStaging id staging => "Hunk " ++ id.text ++ " " ++ staging.name
  | hunkVerdict id verdict => "Hunk " ++ id.text ++ " marked " ++ verdict.label
  | lineCommented file label => "Comment added on " ++ file ++ " " ++ label
  | hunkCommented id => "Comment added on hunk " ++ id.text
  | feedbackSaved => "Overall feedback saved"
  | feedbackCleared => "Overall feedback cleared"
  | requestSaved => "Original request saved"
  | requestCleared => "Original request cleared"
  | refreshed hunks files => toString hunks ++ " hunks in " ++ toString files ++ " files"
  | refreshFailed error => "Diff failed: " ++ error.message
  | refreshBusy => "Refresh already in progress"
  | exported path => "Exported to " ++ path
  | exportFailed path reason => "Export failed: Failed to write " ++ path ++ ": " ++ reason
  | commentBlank => "Empty comment discarded"

end Notice

end HunkReview
