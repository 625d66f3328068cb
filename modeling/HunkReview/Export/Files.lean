import HunkReview.Review.Session

/-!
# Hunks by file

Exports list each file once, in order of code points, with its hunks in the order of the diff.
-/

namespace HunkReview

/-- Files in increasing order, each with hunks. -/
abbrev FileGroups := List (String × List ReviewHunk)

/-- Put a hunk at the end of its file's group. A file that is not there yet gets a group in its
place. -/
def insertHunk (h : ReviewHunk) : FileGroups → FileGroups
  | [] => [(h.file, [h])]
  | (file, hunks) :: groups =>
    if h.file < file then (h.file, [h]) :: (file, hunks) :: groups
    else if h.file = file then (file, hunks ++ [h]) :: groups
    else (file, hunks) :: insertHunk h groups

def Session.byFile (s : Session) : FileGroups :=
  s.hunks.foldl (fun groups h => insertHunk h groups) []

end HunkReview
