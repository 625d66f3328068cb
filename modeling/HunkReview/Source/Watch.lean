import HunkReview.Path

/-!
# What a watcher passes over

Changes of exports, and of git's own files except the index, never change the diff.
-/

namespace HunkReview.Watch

def ignores (path repository exportDir : String) : Bool :=
  if Path.startsWith path exportDir then true
  else
    match Path.below? path repository with
    | none => false
    | some names => names.head? == some ".git" && names != [".git", "index"]

end HunkReview.Watch
