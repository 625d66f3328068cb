/-!
# What is compared

A comparison names the two sides of a diff: by revisions, or as a patch that was made elsewhere.
-/

namespace HunkReview

inductive Comparison where
  /-- The index against the work tree. -/
  | unstaged
  /-- The last commit against the index. -/
  | staged
  | workTree (base : String)
  | commits (old new : String)
  /-- The merge base of two commits against the second. -/
  | mergeBase (old new : String)
  | patch (path : String)
  deriving DecidableEq, Repr

namespace Comparison

def revisionArgs : Comparison → List String
  | unstaged | patch _ => []
  | staged => ["--staged"]
  | workTree base => [base]
  | commits old new => [old ++ ".." ++ new]
  | mergeBase old new => [old ++ "..." ++ new]

/-- The revision that holds the old side; the empty revision is the index. -/
def oldRevision? : Comparison → Option String
  | unstaged => some ""
  | staged => some "HEAD"
  | workTree base => some base
  | commits old _ | mergeBase old _ => some old
  | patch _ => none

/-- The name shown to the reviewer; a review starts afresh when it changes. -/
def label : Comparison → String
  | unstaged => "unstaged changes"
  | staged => "staged changes"
  | workTree base => "working tree vs " ++ base
  | commits old new => old ++ ".." ++ new
  | mergeBase old new => old ++ "..." ++ new
  | patch path => "patch " ++ path

def isPatch : Comparison → Bool
  | patch _ => true
  | _ => false

end Comparison

end HunkReview
