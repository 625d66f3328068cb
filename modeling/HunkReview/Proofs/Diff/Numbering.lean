import HunkReview.Proofs.Diff.Printed
import HunkReview.Review.Comment
import Mathlib.Data.List.Forall2

/-! Line numbers against the files. A body line's number is the hunk's start plus the lines of its
side before it, up to the largest line number. For a hunk that tells the truth about two files, the
number shown for a line is short of its real one by the lines that reading dropped before it. -/
namespace HunkReview

def LineKind.isOn (side : Side) (kind : LineKind) : Bool :=
  match side with
  | .old => kind != .addition
  | .new => kind != .deletion

def NumberedLine.lineOn (side : Side) (l : NumberedLine) : Option LineNo :=
  match side with
  | .old => l.oldLine
  | .new => l.newLine

def HunkHeader.startOn (side : Side) (h : HunkHeader) : LineNo :=
  match side with
  | .old => h.oldStart
  | .new => h.newStart

def HunkHeader.countOn (side : Side) (h : HunkHeader) : LineNo :=
  match side with
  | .old => h.oldCount
  | .new => h.newCount

def LineNo.plus (n : LineNo) (k : Nat) : LineNo :=
  clamp (n.val + k)

@[simp] theorem LineNo.plus_zero (n : LineNo) : n.plus 0 = n := by
  apply LineNo.ext
  simp [plus, n.le_max]

@[simp] theorem LineNo.next_plus (n : LineNo) (k : Nat) : n.next.plus k = n.plus (k + 1) := by
  apply LineNo.ext
  simp only [plus, val_clamp, val_next]
  omega

theorem LineNo.val_plus {n : LineNo} {k : Nat} (small : n.val + k ≤ 4294967295) :
    (n.plus k).val = n.val + k := by
  rw [plus, val_clamp, Nat.min_eq_left small]

/-- The number of a line on a side where lines of the given number come before it. -/
def numberOn (side : Side) (start : LineNo) (before : Nat) (kind : LineKind) : Option LineNo :=
  if kind.isOn side then some (start.plus before) else none

def sizeOn (side : Side) (body : List DiffLine) : Nat :=
  body.countP (·.kind.isOn side)

theorem sizeOn_cons (side : Side) (l : DiffLine) (body : List DiffLine) :
    sizeOn side (l :: body) = sizeOn side body + if l.kind.isOn side then 1 else 0 :=
  List.countP_cons

/-- The closed form of the two counters. -/
theorem numberFrom_getElem? (old new : LineNo) (before : List DiffLine) (l : DiffLine)
    (after : List DiffLine) :
    (numberFrom old new (before ++ l :: after))[before.length]? =
      some ⟨l.kind, numberOn .old old (sizeOn .old before) l.kind,
        numberOn .new new (sizeOn .new before) l.kind, l.content⟩ := by
  induction before generalizing old new with
  | nil =>
    obtain ⟨kind, content⟩ := l
    cases kind <;> simp [numberFrom, numberOn, LineKind.isOn, sizeOn]
  | cons b before ih =>
    obtain ⟨kind, content⟩ := b
    rw [sizeOn_cons, sizeOn_cons, List.cons_append, List.length_cons]
    cases kind <;> simp only [numberFrom, List.getElem?_cons_succ, ih] <;>
      simp [numberOn, LineKind.isOn]

theorem map_numberFrom (old new : LineNo) (body : List DiffLine) :
    (numberFrom old new body).map (fun n => DiffLine.mk n.kind n.content) = body := by
  induction body generalizing old new with
  | nil => rfl
  | cons l body ih =>
    obtain ⟨kind, content⟩ := l
    cases kind <;> simp [numberFrom, ih]

/-! ### Truthful hunks -/

def lineAt (file : List String) (n : Nat) : Option String :=
  if n = 0 then none else file[n - 1]?

/-- The lines of a file that numbers can count. -/
structure IsFile (file : List String) : Prop where
  lines : ∀ content ∈ file, IsLineText content
  short : file.length < LineNo.max

def linesOn (side : Side) (body : List DiffLine) : List String :=
  (body.filter (·.kind.isOn side)).map (·.content)

/-- The hunk's counts are those of its body, and its body shows the lines of the two files from its
starts on. -/
structure Truthful (files : Side → List String) (h : Hunk) : Prop where
  counts : ∀ side, (h.countOn side).val = (linesOn side h.lines).length
  shown : ∀ side i content, (linesOn side h.lines)[i]? = some content →
    lineAt (files side) ((h.startOn side).val + i) = some content

theorem lineAt_eq_some {file : List String} {n : Nat} {content : String}
    (found : lineAt file n = some content) : content ∈ file ∧ n ≤ file.length := by
  unfold lineAt at found
  split at found
  · cases found
  · have inside := (List.getElem?_eq_some_iff.mp found).1
    exact ⟨List.mem_of_getElem? found, by omega⟩

theorem length_linesOn (side : Side) (body : List DiffLine) :
    (linesOn side body).length = sizeOn side body := by
  rw [linesOn, List.length_map, sizeOn, List.countP_eq_length_filter]

theorem linesOn_getElem? {side : Side} {l : DiffLine} (on : l.kind.isOn side)
    (before after : List DiffLine) :
    (linesOn side (before ++ l :: after))[sizeOn side before]? = some l.content := by
  have split : linesOn side (before ++ l :: after) =
      linesOn side before ++ l.content :: linesOn side after := by
    simp [linesOn, on]
  rw [split, ← length_linesOn, List.getElem?_append_right (Nat.le_refl _), Nat.sub_self]
  rfl

/-- The real place of a body line. -/
theorem Truthful.lineAt {files : Side → List String} {h : Hunk} (truthful : Truthful files h)
    {before after : List DiffLine} {l : DiffLine} (split : h.lines = before ++ l :: after)
    {side : Side} (on : l.kind.isOn side) :
    HunkReview.lineAt (files side) ((h.startOn side).val + sizeOn side before) = some l.content :=
  truthful.shown side _ _ (split ▸ linesOn_getElem? on before after)

theorem LineKind.exists_isOn (kind : LineKind) : ∃ side, kind.isOn side := by
  cases kind
  · exact ⟨.old, rfl⟩
  · exact ⟨.new, rfl⟩
  · exact ⟨.old, rfl⟩

theorem Truthful.isLineText {files : Side → List String} {h : Hunk} (truthful : Truthful files h)
    (texts : ∀ side, IsFile (files side)) : ∀ l ∈ h.lines, IsLineText l.content := by
  intro l member
  obtain ⟨before, after, split⟩ := List.append_of_mem member
  obtain ⟨side, on⟩ := l.kind.exists_isOn
  exact (texts side).lines _ (lineAt_eq_some (truthful.lineAt split on)).1

/-! ### What is shown after reading -/

/-- How many lines of a side reading drops from a body. -/
def droppedOn (side : Side) (body : List DiffLine) : Nat :=
  sizeOn side (body.filter (·.isFileMark))

theorem sizeOn_eq_kept_add_dropped (side : Side) (body : List DiffLine) :
    sizeOn side body = sizeOn side (body.filter (!·.isFileMark)) + droppedOn side body := by
  rw [Nat.add_comm]
  exact List.countP_eq_countP_filter_add body _ _

/-- Numbered lines against the hunk that was printed. -/
structure Shows (files : Side → List String) (h : Hunk) (ns : List NumberedLine) : Prop where
  /-- Exactly the body lines that look like marks of a file are lost. -/
  kept : ns.map (fun n => DiffLine.mk n.kind n.content) = h.lines.filter (!·.isFileMark)
  /-- A number is short of the real one by the lines of its side lost before it. -/
  shifted : ∀ before l after, h.lines = before ++ l :: after → l.isFileMark = false →
    ∃ shown, ns[(before.filter (!·.isFileMark)).length]? = some shown ∧
      shown.kind = l.kind ∧ shown.content = l.content ∧
      ∀ side n, shown.lineOn side = some n →
        lineAt (files side) (n.val + droppedOn side before) = some shown.content
  /-- A hunk without such lines loses nothing and has the real numbers. -/
  exact : (∀ l ∈ h.lines, l.isFileMark = false) →
    ns.map (fun n => DiffLine.mk n.kind n.content) = h.lines ∧
      ∀ shown ∈ ns, ∀ side n, shown.lineOn side = some n →
        lineAt (files side) n.val = some shown.content

theorem lineOn_numbered (h : HunkHeader) (kind : LineKind) (content : String) (side : Side)
    (before : Side → Nat) :
    NumberedLine.lineOn side ⟨kind, numberOn .old h.oldStart (before .old) kind,
      numberOn .new h.newStart (before .new) kind, content⟩ =
      numberOn side (h.startOn side) (before side) kind := by
  cases side <;> rfl

theorem shifted_readBack {files : Side → List String} {h : Hunk} (truthful : Truthful files h)
    (texts : ∀ side, IsFile (files side)) (path : List Char) {before after : List DiffLine}
    {l : DiffLine} (split : h.lines = before ++ l :: after) (kept : l.isFileMark = false) :
    ∃ shown, (h.readBack path).numbered[(before.filter (!·.isFileMark)).length]? = some shown ∧
      shown.kind = l.kind ∧ shown.content = l.content ∧
      ∀ side n, shown.lineOn side = some n →
        lineAt (files side) (n.val + droppedOn side before) = some shown.content := by
  have lines : (h.readBack path).lines =
      before.filter (!·.isFileMark) ++ l :: after.filter (!·.isFileMark) := by
    simp [Hunk.readBack, split, kept]
  have found := numberFrom_getElem? h.oldStart h.newStart (before.filter (!·.isFileMark)) l
    (after.filter (!·.isFileMark))
  rw [← lines] at found
  refine ⟨_, found, rfl, rfl, fun side n number => ?_⟩
  rw [lineOn_numbered h.toHunkHeader l.kind l.content side
    fun side => sizeOn side (before.filter (!·.isFileMark)), numberOn] at number
  by_cases on : l.kind.isOn side
  · rw [if_pos on, Option.some.injEq] at number
    have real := truthful.lineAt split on
    have bound := (lineAt_eq_some real).2
    have short := (texts side).short
    have parts := sizeOn_eq_kept_add_dropped side before
    rw [LineNo.max] at short
    rw [← number, LineNo.val_plus (by omega), Nat.add_assoc, ← parts, real]
  · rw [if_neg on] at number
    cases number

theorem shows_readBack {files : Side → List String} {h : Hunk} (truthful : Truthful files h)
    (texts : ∀ side, IsFile (files side)) (path : List Char) :
    Shows files h (h.readBack path).numbered := by
  have kept := map_numberFrom h.oldStart h.newStart (h.readBack path).lines
  have shifted {before after : List DiffLine} {l : DiffLine} :=
    @shifted_readBack files h truthful texts path before after l
  refine ⟨kept, fun before l after => shifted, fun plain => ?_⟩
  have all {body : List DiffLine} (inside : body ⊆ h.lines) :
      body.filter (!·.isFileMark) = body := by
    apply List.filter_eq_self.mpr
    intro l member
    simp [plain l (inside member)]
  have whole : (h.readBack path).lines = h.lines := all (List.Subset.refl _)
  refine ⟨kept.trans whole, fun shown member side n number => ?_⟩
  obtain ⟨i, atIndex⟩ := List.getElem?_of_mem member
  have sizes := congrArg List.length (kept.trans whole)
  have bound := (List.getElem?_eq_some_iff.mp atIndex).1
  rw [List.length_map] at sizes
  have inside : i < h.lines.length := sizes ▸ bound
  have split : h.lines = h.lines.take i ++ h.lines[i] :: h.lines.drop (i + 1) := by
    rw [← List.drop_eq_getElem_cons inside, List.take_append_drop]
  have front := all (List.take_subset i h.lines)
  have none : droppedOn side (h.lines.take i) = 0 := by
    have parts := sizeOn_eq_kept_add_dropped side (h.lines.take i)
    rw [front] at parts
    omega
  obtain ⟨shown', at', -, -, real⟩ := shifted split (plain _ (List.getElem_mem inside))
  rw [front, List.length_take_of_le (Nat.le_of_lt inside), atIndex, Option.some.injEq] at at'
  subst at'
  have place := real side n number
  rwa [none, Nat.add_zero] at place

/-- Reading a printed diff of two files: of each truthful hunk exactly the body lines that look like
marks of a file are lost, and the numbers are real up to the lines lost before them. -/
theorem numbered_printSection {files : Side → List String} (texts : ∀ side, IsFile (files side))
    {hunks : List Hunk} (truthful : ∀ h ∈ hunks, Truthful files h)
    (contexts : ∀ h ∈ hunks, '\n' ∉ h.context.toList) {path : String}
    (clean : '\n' ∉ path.toList) (named : Text.dropReturn path.toList ≠ [])
    (plain : ¬" b/".toList <:+: path.toList) (short : Bool) :
    List.Forall₂ (fun h parsed => Shows files h parsed.numbered) hunks
      (parseDiff (printSection short path hunks)) := by
  have bodies : ∀ h ∈ hunks, ∀ l ∈ h.lines, IsLineText l.content := fun h member =>
    (truthful h member).isLineText texts
  rw [parseDiff_printSection short clean named plain contexts bodies, List.forall₂_map_right_iff,
    List.forall₂_same]
  exact fun h member => shows_readBack (truthful h member) texts _

/-- An old file whose first line starts with `--`, and the new file without that line. -/
def dashedFiles (side : Side) : List String :=
  match side with
  | .old => ["-- x", "y"]
  | .new => ["y"]

def dashedHunk : Hunk where
  oldStart := .clamp 1
  oldCount := .clamp 2
  newStart := .clamp 1
  newCount := .clamp 1
  context := ""
  file := "p"
  lines := [⟨.deletion, "-- x"⟩, ⟨.context, "y"⟩]

theorem isFile_dashedFiles (side : Side) : IsFile (dashedFiles side) := by
  cases side
  · exact ⟨by simp only [dashedFiles, IsLineText]; decide, by decide⟩
  · exact ⟨by simp only [dashedFiles, IsLineText]; decide, by decide⟩

theorem truthful_dashedHunk : Truthful dashedFiles dashedHunk := by
  constructor
  · intro side
    cases side <;> rfl
  · intro side i content shown
    have lines : linesOn side dashedHunk.lines = dashedFiles side := by cases side <;> rfl
    have start : (dashedHunk.startOn side).val = 1 := by cases side <;> rfl
    rw [lines] at shown
    rw [start, lineAt, if_neg (by omega), Nat.add_sub_cancel_left, shown]

/-- A deleted line that starts with `--` is lost, and the line below it is shown under its number;
a path that is empty or that ends the file line loses the whole section. -/
theorem dashed_line_lost :
    (∀ side, IsFile (dashedFiles side)) ∧ Truthful dashedFiles dashedHunk ∧
    ¬" b/".toList <:+: "p".toList ∧
    (parseDiff (printSection false "p" [dashedHunk])).map Hunk.numbered =
      [[⟨.context, some (.clamp 1), some (.clamp 1), "y"⟩]] ∧
    lineAt (dashedFiles .old) 1 = some "-- x" ∧
    parseDiff (printSection false "" [dashedHunk]) = [] ∧
    parseDiff (printSection false "\n" [dashedHunk]) = [] ∧
    parseDiff (printSection false "\r" [dashedHunk]) = [] := by
  refine ⟨isFile_dashedFiles, truthful_dashedHunk, by decide, ?_, rfl, ?_, ?_, ?_⟩
  all_goals decide +kernel

/-- The same hunk, read as `numbered_printSection` says. -/
theorem numbered_printSection_dashedHunk :
    List.Forall₂ (fun h parsed => Shows dashedFiles h parsed.numbered) [dashedHunk]
      (parseDiff (printSection true "p" [dashedHunk])) :=
  numbered_printSection isFile_dashedFiles
    (by rintro h member; rw [List.mem_singleton.mp member]; exact truthful_dashedHunk)
    (by rintro h member; rw [List.mem_singleton.mp member]; decide)
    (by decide) (by decide) (by decide) true

end HunkReview
