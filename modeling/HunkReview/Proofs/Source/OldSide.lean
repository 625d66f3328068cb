import HunkReview.Proofs.Text.Lines
import HunkReview.Source.Fetch

/-! Old files against the diff under review. What `git` compares and what it prints is taken from its
documentation. With that, a file is fetched from the old side of the diff, except where the diff begins
at a merge base: then the file is fetched from the commit that the comparison names, which is the merge
base only as long as it has no history of its own. -/
namespace HunkReview

variable {Commit : Type}

/-! ### Repositories -/

inductive FileTree (Commit : Type) where
  | nothing
  | commit (c : Commit)
  | index
  | workTree
  deriving DecidableEq

/-- What a repository holds, and the commits that revisions name. -/
structure RepositoryState (Commit : Type) where
  /-- The commit of a revision, if it names a single one. -/
  commit? : String → Option Commit
  mergeBase? : Commit → Commit → Option Commit
  committed : Commit → String → Option String
  staged : String → Option String
  inWorkTree : String → Option String

namespace RepositoryState

def text? (repo : RepositoryState Commit) (tree : FileTree Commit) (path : String) : Option String :=
  match tree with
  | .nothing => none
  | .commit c => repo.committed c path
  | .index => repo.staged path
  | .workTree => repo.inWorkTree path

/-- The empty revision is the index. Before the first commit there is nothing at `HEAD`. -/
def treeAt (repo : RepositoryState Commit) (revision : String) : FileTree Commit :=
  match repo.commit? revision with
  | some c => .commit c
  | none => if revision = "" then .index else .nothing

def IsPrintable (repo : RepositoryState Commit) (revision : String) : Prop :=
  revision = "" ∨ revision = "HEAD" ∨ ∃ c, repo.commit? revision = some c

theorem treeAt_commit {repo : RepositoryState Commit} {revision : String} {c : Commit}
    (named : repo.commit? revision = some c) : repo.treeAt revision = .commit c := by
  rw [treeAt, named]

end RepositoryState

namespace Comparison

/-- Every revision names a single commit, and there is a merge base where one is asked for. -/
def Resolves (repo : RepositoryState Commit) : Comparison → Prop
  | unstaged | staged => True
  | workTree base => ∃ c, repo.commit? base = some c
  | commits old new => ∃ a b, repo.commit? old = some a ∧ repo.commit? new = some b
  | mergeBase old new => ∃ a b base, repo.commit? old = some a ∧ repo.commit? new = some b ∧
    repo.mergeBase? a b = some base
  | patch _ => False

/-- The commit on the old side is not the merge base itself. -/
def Diverges (repo : RepositoryState Commit) : Comparison → Prop
  | mergeBase old new => ∃ a b, repo.commit? old = some a ∧ repo.commit? new = some b ∧
    repo.mergeBase? a b ≠ some a
  | _ => False

end Comparison

/-! ### What is documented -/

/-- A `git` in a repository: the trees that a diff command compares, and how commands end. -/
structure Git (Commit : Type) where
  compared? : Command → Option (FileTree Commit × FileTree Commit)
  run : Command → Reply

def gitDiff (directory : String) (contextLines : LineNo) (revisions : List String) : Command where
  program := "git"
  args := ["diff", "--no-color", "-U" ++ contextLines.render] ++ revisions
  directory := directory

def gitShow (directory revision path : String) : Command where
  program := "git"
  args := ["show", revision ++ ":" ++ path]
  directory := directory

def Reply.Prints (reply : Reply) : Option String → Prop
  | some text => ∃ errors, reply = .ended (.code 0) text errors
  | none => ∃ exit output errors, reply = .ended exit output errors ∧ exit ≠ .code 0

/-- Diffs compare, and files are printed from, the trees that the documentation names. -/
structure Git.Documented (git : Git Commit) (repo : RepositoryState Commit) (directory : String) :
    Prop where
  emptyRevision : repo.commit? "" = none
  unstaged : ∀ lines, git.compared? (gitDiff directory lines []) = some (.index, .workTree)
  staged : ∀ lines,
    git.compared? (gitDiff directory lines ["--staged"]) = some (repo.treeAt "HEAD", .index)
  workTree : ∀ lines base c, repo.commit? base = some c →
    git.compared? (gitDiff directory lines [base]) = some (.commit c, .workTree)
  commits : ∀ lines old new a b, repo.commit? old = some a → repo.commit? new = some b →
    git.compared? (gitDiff directory lines [old ++ ".." ++ new]) = some (.commit a, .commit b)
  mergeBase : ∀ lines old new a b base, repo.commit? old = some a → repo.commit? new = some b →
    repo.mergeBase? a b = some base →
    git.compared? (gitDiff directory lines [old ++ "..." ++ new]) = some (.commit base, .commit b)
  printed : ∀ revision path, repo.IsPrintable revision →
    (git.run (gitShow directory revision path)).Prints (repo.text? (repo.treeAt revision) path)

/-! ### The old revision and the old side -/

/-- The revision for old files names the old side of the diff exactly when the two sides of a merge base
have not diverged. -/
theorem Git.Documented.compares {git : Git Commit} {repo : RepositoryState Commit}
    {directory : String} (documented : git.Documented repo directory) {comparison : Comparison}
    (resolves : comparison.Resolves repo) (lines : LineNo) :
    ∃ revision old new, comparison.oldRevision? = some revision ∧ repo.IsPrintable revision ∧
      git.compared? (gitDiff directory lines comparison.revisionArgs) = some (old, new) ∧
      (repo.treeAt revision = old ↔ ¬comparison.Diverges repo) := by
  cases comparison with
  | unstaged =>
    have index : repo.treeAt "" = .index := by
      rw [RepositoryState.treeAt, documented.emptyRevision]
      rfl
    exact ⟨"", .index, _, rfl, .inl rfl, documented.unstaged lines, iff_of_true index id⟩
  | staged => exact ⟨"HEAD", _, _, rfl, .inr (.inl rfl), documented.staged lines, iff_of_true rfl id⟩
  | workTree base =>
    obtain ⟨c, named⟩ := resolves
    exact ⟨base, _, _, rfl, .inr (.inr ⟨c, named⟩), documented.workTree lines base c named,
      iff_of_true (repo.treeAt_commit named) id⟩
  | commits old new =>
    obtain ⟨a, b, namedOld, namedNew⟩ := resolves
    exact ⟨old, _, _, rfl, .inr (.inr ⟨a, namedOld⟩),
      documented.commits lines old new a b namedOld namedNew,
      iff_of_true (repo.treeAt_commit namedOld) id⟩
  | mergeBase old new =>
    obtain ⟨a, b, base, namedOld, namedNew, found⟩ := resolves
    refine ⟨old, _, _, rfl, .inr (.inr ⟨a, namedOld⟩),
      documented.mergeBase lines old new a b base namedOld namedNew found, ?_⟩
    simp [RepositoryState.treeAt_commit namedOld, Comparison.Diverges, namedOld, namedNew, found,
      eq_comm]
  | patch path => exact resolves.elim

/-! ### A `git` that reads plain names -/

namespace RepositoryState

/-- The names of commits are not empty, no options, and without colons and dots. -/
def IsPlain (repo : RepositoryState Commit) : Prop :=
  ∀ revision c, repo.commit? revision = some c →
    revision ≠ "" ∧ revision ≠ "--staged" ∧ ':' ∉ revision.toList ∧ '.' ∉ revision.toList

def named? (repo : RepositoryState Commit) (argument : String) :
    Option (FileTree Commit × FileTree Commit) :=
  match argument.toList.span (· != '.') with
  | (first, []) =>
    if argument = "--staged" then some (repo.treeAt "HEAD", .index)
    else (repo.commit? (String.ofList first)).map fun c => (.commit c, .workTree)
  | (first, dots) =>
    (repo.commit? (String.ofList first)).bind fun a =>
      if dots.take 3 = ['.', '.', '.'] then
        (repo.commit? (String.ofList (dots.drop 3))).bind fun b =>
          (repo.mergeBase? a b).map fun base => (.commit base, .commit b)
      else (repo.commit? (String.ofList (dots.drop 2))).map fun b => (.commit a, .commit b)

def git (repo : RepositoryState Commit) : Git Commit where
  compared? c :=
    match c.args with
    | ["diff", _, _] => some (.index, .workTree)
    | ["diff", _, _, argument] => repo.named? argument
    | _ => none
  run c :=
    match c.args with
    | ["show", object] =>
      let (revision, rest) := object.toList.span (· != ':')
      match repo.text? (repo.treeAt (String.ofList revision)) (String.ofList (rest.drop 1)) with
      | some text => .ended (.code 0) text ""
      | none => .ended (.code 128) "" ("fatal: " ++ object)
    | _ => .ended (.code 129) "" "usage"

theorem prints_git (repo : RepositoryState Commit) (directory path : String) {revision : String}
    (plain : ':' ∉ revision.toList) :
    (repo.git.run (gitShow directory revision path)).Prints
      (repo.text? (repo.treeAt revision) path) := by
  have object : (revision ++ ":" ++ path).toList.span (· != ':') =
      (revision.toList, ':' :: path.toList) := by
    simpa using (Text.span_ne plain path.toList).1
  simp only [git, gitShow, object, List.drop_succ_cons, List.drop_zero, String.ofList_toList]
  cases repo.text? (repo.treeAt revision) path with
  | none => exact ⟨_, _, _, rfl, by decide⟩
  | some text => exact ⟨_, rfl⟩

theorem documented_git {repo : RepositoryState Commit} (plain : repo.IsPlain) (directory : String) :
    repo.git.Documented repo directory where
  emptyRevision := by
    by_contra named
    obtain ⟨c, named⟩ := Option.ne_none_iff_exists'.mp named
    exact (plain "" c named).1 rfl
  unstaged _ := rfl
  staged _ := rfl
  workTree lines base c named := by
    obtain ⟨-, option, -, dotless⟩ := plain base c named
    have read := (Text.span_ne dotless []).2
    simp [-List.span_eq_takeWhile_dropWhile, git, gitDiff, named?, read, option, named]
  commits lines old new a b namedOld namedNew := by
    obtain ⟨-, -, -, dotless⟩ := plain old a namedOld
    obtain ⟨-, -, -, dotlessNew⟩ := plain new b namedNew
    have read := (Text.span_ne dotless ('.' :: new.toList)).1
    have two : new.toList.take 1 ≠ ['.'] := by
      intro third
      exact dotlessNew (List.mem_of_mem_take (third ▸ List.mem_singleton_self '.'))
    simp [-List.span_eq_takeWhile_dropWhile, git, gitDiff, named?, read, namedOld, namedNew, two]
  mergeBase lines old new a b base namedOld namedNew found := by
    obtain ⟨-, -, -, dotless⟩ := plain old a namedOld
    have read := (Text.span_ne dotless ('.' :: '.' :: new.toList)).1
    simp [-List.span_eq_takeWhile_dropWhile, git, gitDiff, named?, read, namedOld, namedNew, found]
  printed revision path printable := by
    apply prints_git
    rcases printable with rfl | rfl | ⟨c, named⟩
    · decide
    · decide
    · exact (plain revision c named).2.2.1

def branched : RepositoryState Nat where
  commit? revision :=
    if revision = "main" then some 2
    else if revision = "topic" ∨ revision = "HEAD" then some 3
    else none
  mergeBase? a b := some (if a = b then a else 1)
  committed c path :=
    if path = "f" then some (if c = 1 then "base\n" else if c = 2 then "main\n" else "topic\n")
    else none
  staged path := if path = "f" then some "topic\n" else none
  inWorkTree path := if path = "f" then some "topic\n" else none

theorem branched_isPlain : branched.IsPlain := by
  intro revision c named
  simp only [branched] at named
  split_ifs at named with first second
  · subst first
    decide
  · rcases second with rfl | rfl <;> decide

end RepositoryState

/-! ### Fetching the old file -/

theorem Reply.Prints.toOption_output {reply : Reply} {text : Option String}
    (prints : reply.Prints text) (command : String) : (reply.output command).toOption = text := by
  cases text with
  | some text =>
    obtain ⟨errors, rfl⟩ := prints
    rfl
  | none =>
    obtain ⟨exit, output, errors, rfl, failed⟩ := prints
    unfold Reply.output
    split
    · rfl
    · next same =>
      cases same
      exact absurd rfl failed
    · rfl

namespace Source

def oldFile? (s : Source) (git : Git Commit) (path : String) : Option String :=
  (Id.run (s.fetchOldFile (fun c => pure (git.run c)) path)).toOption

theorem oldFile?_of_prints {s : Source} {git : Git Commit} {revision path : String}
    {text : Option String} (named : s.comparison.oldRevision? = some revision)
    (prints : (git.run (gitShow s.repository revision path)).Prints text) :
    s.oldFile? git path = text := by
  have command : s.oldFileCommand path = .ok (gitShow s.repository revision path) := by
    rw [oldFileCommand, named]
    rfl
  rw [oldFile?, fetchOldFile, command]
  exact prints.toOption_output "show"

/-- The diff of a source has an old side, and old files are fetched from one tree. The tree is the old
side exactly when the two sides of a merge base have not diverged. -/
theorem oldFile_isOldSide {git : Git Commit} {repo : RepositoryState Commit} (s : Source)
    (documented : git.Documented repo s.repository) (resolves : s.comparison.Resolves repo) :
    ∃ revision old new, s.comparison.oldRevision? = some revision ∧
      git.compared? s.diffCommand = some (old, new) ∧
      (∀ path, s.oldFile? git path = repo.text? (repo.treeAt revision) path) ∧
      (repo.treeAt revision = old ↔ ¬s.comparison.Diverges repo) := by
  obtain ⟨revision, old, new, named, printable, compared, same⟩ :=
    documented.compares resolves s.contextLines
  refine ⟨revision, old, new, named, compared, fun path => ?_, same⟩
  exact oldFile?_of_prints named (documented.printed revision path printable)

/-- The two commits as they are: the file is that of the old one. -/
theorem oldFile_isOldSide_branches :
    ∃ revision old new, (Comparison.commits "main" "topic").oldRevision? = some revision ∧
      RepositoryState.branched.git.compared?
        (diffCommand ⟨"/repo", .clamp 3, .commits "main" "topic"⟩) = some (old, new) ∧
      (∀ path, oldFile? ⟨"/repo", .clamp 3, .commits "main" "topic"⟩
        RepositoryState.branched.git path =
          RepositoryState.branched.text? (RepositoryState.branched.treeAt revision) path) ∧
      (RepositoryState.branched.treeAt revision = old ↔
        ¬(Comparison.commits "main" "topic").Diverges RepositoryState.branched) :=
  oldFile_isOldSide ⟨"/repo", .clamp 3, .commits "main" "topic"⟩
    (RepositoryState.documented_git RepositoryState.branched_isPlain "/repo")
    ⟨2, 3, rfl, rfl⟩

/-- Compared from its merge base, the diff of a branch begins at commit 1, and the old file is that of
commit 2, which is not on that branch. -/
theorem oldFile_past_mergeBase :
    let source : Source := ⟨"/repo", .clamp 3, .mergeBase "main" "topic"⟩
    let repo := RepositoryState.branched
    repo.git.Documented repo source.repository ∧ source.comparison.Resolves repo ∧
      repo.git.compared? source.diffCommand = some (.commit 1, .commit 3) ∧
      repo.text? (.commit 1) "f" = some "base\n" ∧
      source.oldFile? repo.git "f" = some "main\n" := by
  refine ⟨RepositoryState.documented_git RepositoryState.branched_isPlain "/repo",
    ⟨2, 3, 1, rfl, rfl, rfl⟩, ?_, rfl, ?_⟩ <;> decide +kernel

end Source

end HunkReview
