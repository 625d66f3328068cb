import HunkReview.Proofs.Diff.Printed

/-! Reading undoes printing. A diff of any number of files comes back hunk by hunk when its texts
fit on lines and none of them reads as something else: paths without ` b/`, contexts without blanks
at their ends, and body lines that do not look like the `---` and `+++` lines of a file. -/
namespace HunkReview

/-- The hunk is one that its printed form tells all of. -/
structure Hunk.IsPlain (h : Hunk) : Prop where
  context : '\n' ∉ h.context.toList
  trimmed : Text.trim h.context.toList = h.context.toList
  texts : ∀ l ∈ h.lines, IsLineText l.content
  unmarked : ∀ l ∈ h.lines, l.isFileMark = false

inductive FileMark where
  | index
  | oldName
  | newName
  deriving DecidableEq, Repr

def FileMark.text : FileMark → String
  | index => "index "
  | oldName => "--- "
  | newName => "+++ "

/-- Lines of marks open and close nothing. -/
theorem FileMark.isBoundary_line (mark : FileMark) (text : List Char) :
    isBoundary (mark.text.toList ++ text) = false := by
  cases mark <;> rfl

theorem FileMark.isLineText_text (mark : FileMark) : IsLineText mark.text := by
  cases mark <;> exact ⟨by decide, by decide⟩

/-- A file of a diff: its path, the lines between its file line and the hunks, if any, and the
hunks. A path may come more than once, and without hunks. -/
structure FileDiff where
  path : String
  marks : List (FileMark × String) := []
  hunks : List Hunk
  named : path ≠ ""
  onLine : IsLineText path
  apart : ¬" b/".toList <:+: path.toList
  markTexts : ∀ m ∈ marks, Text.OneLine m.2
  ofFile : ∀ h ∈ hunks, h.file = path
  plain : ∀ h ∈ hunks, h.IsPlain

namespace FileDiff

def markLines (f : FileDiff) : List (List Char) :=
  f.marks.map fun m => m.1.text.toList ++ m.2.toList

def printLines (short : Bool) (f : FileDiff) : List (List Char) :=
  printFileLine f.path.toList :: (f.markLines ++ f.hunks.flatMap (Hunk.printLines short))

end FileDiff

def printDiff (short : Bool) (files : List FileDiff) : String :=
  String.ofList (Text.writeLines (files.flatMap (FileDiff.printLines short)))

/-! ### Contexts -/

namespace Hunk.IsPlain

variable {h : Hunk}

/-- A carriage return is blank, so a trimmed context does not end in one. -/
theorem context_isLineText (plain : h.IsPlain) : IsLineText h.context := by
  refine ⟨plain.context, fun last => ?_⟩
  have kept := Text.dropEndWhile_getLast? Text.isBlank (h.context.toList.dropWhile Text.isBlank)
  have same : Text.dropEndWhile Text.isBlank (h.context.toList.dropWhile Text.isBlank) =
      h.context.toList := plain.trimmed
  rw [same] at kept
  exact absurd (kept '\r' last) (by decide)

/-- The context without the space that is printed before it. -/
theorem trim_printContext (plain : h.IsPlain) :
    Text.trim (Text.dropReturn h.printContext) = h.context.toList := by
  unfold HunkHeader.printContext
  split
  · next empty =>
    have none : h.context = "" := String.isEmpty_iff.mp empty
    rw [none]
    rfl
  · have spaced : Text.dropReturn (' ' :: h.context.toList) = ' ' :: h.context.toList := by
      rw [show ' ' :: h.context.toList = [' '] ++ h.context.toList from rfl,
        Text.dropReturn_append (by decide), Text.dropReturn_of_ne plain.context_isLineText.2]
    have front : (' ' :: h.context.toList).dropWhile Text.isBlank =
        h.context.toList.dropWhile Text.isBlank := List.dropWhile_cons_of_pos (by decide)
    rw [spaced, Text.trim, front]
    exact plain.trimmed

theorem readBack_eq (plain : h.IsPlain) : h.readBack h.file.toList = h := by
  have lines : h.lines.filter (!·.isFileMark) = h.lines := by
    refine List.filter_eq_self.mpr fun l member => ?_
    rw [plain.unmarked l member]
    rfl
  rw [readBack, plain.trim_printContext, lines, String.ofList_toList, String.ofList_toList]

end Hunk.IsPlain

/-! ### Files -/

namespace FileDiff

theorem map_readBack (f : FileDiff) : f.hunks.map (Hunk.readBack f.path.toList) = f.hunks := by
  have each : ∀ h ∈ f.hunks, h.readBack f.path.toList = h := by
    intro h member
    rw [← f.ofFile h member]
    exact (f.plain h member).readBack_eq
  rw [List.map_congr_left each, List.map_id']

theorem filePath?_fileLine (f : FileDiff) :
    filePath? (Text.dropReturn (printFileLine f.path.toList)) = some f.path := by
  have kept : Text.dropReturn f.path.toList = f.path.toList := Text.dropReturn_of_ne f.onLine.2
  have named : Text.dropReturn f.path.toList ≠ [] := by
    rw [kept, Ne, String.toList_eq_nil_iff]
    exact f.named
  rw [filePath?_dropReturn_printFileLine named f.apart, kept, String.ofList_toList]

theorem newline_not_mem_printLines (short : Bool) (f : FileDiff) :
    ∀ line ∈ f.printLines short, '\n' ∉ line := by
  have hunks := HunkReview.newline_not_mem_printLines short
    (fun h member => (f.plain h member).context) (fun h member => (f.plain h member).texts)
  have marks : ∀ line ∈ f.markLines, '\n' ∉ line := by
    intro line member
    obtain ⟨⟨mark, text⟩, inside, rfl⟩ := List.mem_map.mp member
    rw [List.mem_append, not_or]
    exact ⟨mark.isLineText_text.1, f.markTexts _ inside⟩
  exact List.forall_mem_cons.mpr
    ⟨newline_not_mem_printFileLine f.onLine.1, List.forall_mem_append.mpr ⟨marks, hunks⟩⟩

/-- The lines before the hunks are no boundaries. -/
theorem isBoundary_markLines (f : FileDiff) :
    ∀ line ∈ f.markLines.map Text.dropReturn, isBoundary line = false := by
  intro line member
  obtain ⟨_, inside, rfl⟩ := List.mem_map.mp member
  obtain ⟨⟨mark, text⟩, -, rfl⟩ := List.mem_map.mp inside
  rw [Text.dropReturn_append mark.isLineText_text.2]
  exact mark.isBoundary_line _

end FileDiff

/-- The lines of printed files are read as the files' hunks, and begin with a boundary if there are
any. -/
theorem hunksFrom_printLines (short : Bool) (file : Option String) (files : List FileDiff) :
    hunksFrom file ((files.flatMap (FileDiff.printLines short)).map Text.dropReturn) =
      files.flatMap (·.hunks) ∧
    bodyOf ((files.flatMap (FileDiff.printLines short)).map Text.dropReturn) = [] := by
  induction files generalizing file with
  | nil => exact ⟨rfl, rfl⟩
  | cons f files ih =>
    obtain ⟨below, ended⟩ := ih (some f.path)
    have fileLine := f.filePath?_fileLine
    have hunks := (hunksFrom_readLines short f.path.toList ended
      (fun h member => (f.plain h member).context) (fun h member => (f.plain h member).texts)).1
    rw [String.ofList_toList, f.map_readBack, below] at hunks
    rw [List.flatMap_cons, List.map_append, FileDiff.printLines, List.map_cons, List.map_append,
      List.cons_append, List.append_assoc]
    constructor
    · rw [hunksFrom_fileLine fileLine, hunksFrom_append f.isBoundary_markLines,
        List.flatMap_cons]
      exact hunks
    · exact bodyOf_boundary (by simp [isBoundary, fileLine]) _

/-- Reading a printed diff gives the hunks of its files, in order and whole. -/
theorem parseDiff_printDiff (short : Bool) (files : List FileDiff) :
    parseDiff (printDiff short files) = files.flatMap (·.hunks) := by
  have clean : ∀ line ∈ files.flatMap (FileDiff.printLines short), '\n' ∉ line := by
    intro line member
    obtain ⟨f, -, inside⟩ := List.mem_flatMap.mp member
    exact f.newline_not_mem_printLines short line inside
  rw [parseDiff_eq_hunksFrom, printDiff, String.toList_ofList, Text.lines_writeLines clean]
  exact (hunksFrom_printLines short none files).1

def lastLines : Hunk where
  oldStart := .clamp 4294967295
  oldCount := .clamp 1
  newStart := .clamp 0
  newCount := .clamp 2
  context := "fn f() @@ x"
  file := "my file"
  lines := [⟨.deletion, "a\r b"⟩, ⟨.addition, ""⟩, ⟨.addition, "@@"⟩]

theorem isPlain_lastLines : lastLines.IsPlain where
  context := by decide
  trimmed := by decide
  texts := by simp only [lastLines, IsLineText]; decide
  unmarked := by simp only [lastLines]; decide

def repeatedPath : List FileDiff :=
  let once : FileDiff := {
    path := "my file"
    hunks := [lastLines]
    named := by decide
    onLine := ⟨by decide, by decide⟩
    apart := by decide +kernel
    markTexts := List.forall_mem_nil _
    ofFile := List.forall_mem_singleton.mpr rfl
    plain := List.forall_mem_singleton.mpr isPlain_lastLines }
  let noHunks : FileDiff := {
    path := "q"
    marks := [(.index, "12..34"), (.oldName, "a/q"), (.newName, "b/q")]
    hunks := []
    named := by decide
    onLine := ⟨by decide, by decide⟩
    apart := by decide +kernel
    markTexts := by simp only [List.forall_mem_cons]; decide
    ofFile := List.forall_mem_nil _
    plain := List.forall_mem_nil _ }
  [once, noHunks, once]

theorem parseDiff_printDiff_repeatedPath :
    printDiff false repeatedPath =
      "diff --git a/my file b/my file\n@@ -4294967295,1 +0,2 @@ fn f() @@ x\n-a\r b\n+\n+@@\n" ++
      "diff --git a/q b/q\nindex 12..34\n--- a/q\n+++ b/q\n" ++
      "diff --git a/my file b/my file\n@@ -4294967295,1 +0,2 @@ fn f() @@ x\n-a\r b\n+\n+@@\n" ∧
    parseDiff (printDiff false repeatedPath) = [lastLines, lastLines] :=
  ⟨by decide +kernel, parseDiff_printDiff false repeatedPath⟩

end HunkReview
