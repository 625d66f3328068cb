import HunkReview.Path

/-!
# Finding the repository

A repository is looked for in a directory and in those above it. A work tree has `.git` in it; a
bare repository is a directory with git's own files.
-/

namespace HunkReview

inductive RepositoryError where
  | notFound
  | noWorkTree
  deriving DecidableEq, Repr

namespace Repository

/-- A directory, by its components last one first, and those above it. -/
def ancestors : List String → List String
  | [] => []
  | name :: above =>
    (match (name :: above).reverse with
      | "/" :: names => "/" ++ "/".intercalate names
      | names => "/".intercalate names) :: ancestors above

def isBare {m : Type → Type} [Monad m] (exists? : String → m Bool) (directory : String) :
    m Bool := do
  for name in ["HEAD", "objects", "refs"] do
    unless ← exists? (Path.join directory name) do return false
  return true

/-- The first of the directories that is a work tree, unless a bare repository comes before. -/
def firstOf {m : Type → Type} [Monad m] (exists? : String → m Bool) :
    List String → m (Except RepositoryError String)
  | [] => pure (.error .notFound)
  | directory :: rest => do
    if ← exists? (Path.join directory ".git") then pure (.ok directory)
    else if ← isBare exists? directory then pure (.error .noWorkTree)
    else firstOf exists? rest

def rootOf {m : Type → Type} [Monad m] (exists? : String → m Bool) (directory : String) :
    m (Except RepositoryError String) :=
  firstOf exists? (ancestors (Path.components directory).reverse)

end Repository

end HunkReview
