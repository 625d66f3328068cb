import HunkReview.Review.Notice

/-!
# Messages

What the status line says after a key or a fetched diff.
-/

namespace HunkReview

inductive Message where
  | notice (n : Notice)
  | refreshing
  | noHunk
  | noFile
  | firstHunk
  | lastHunk
  | selectionStarted
  | selectionCleared
  | selectionNeedsLine
  | commentNeedsHunk
  | oldFileFailed (error : FetchError)
  | cancelled
  deriving DecidableEq, Repr

def Message.text : Message → String
  | notice n => n.message
  | refreshing => "Refreshing…"
  | noHunk => "No hunk under cursor"
  | noFile => "No file under cursor"
  | firstHunk => "First hunk"
  | lastHunk => "Last hunk"
  | selectionStarted => "Selection started; move and press c to comment"
  | selectionCleared => "Selection cleared"
  | selectionNeedsLine => "Selections start on a diff line"
  | commentNeedsHunk => "Move the cursor onto a hunk to comment"
  | oldFileFailed error => "Snapshot failed: " ++ error.message
  | cancelled => "Cancelled"

end HunkReview
