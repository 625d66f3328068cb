import HunkReview.Proofs.Diff.Header
import HunkReview.Proofs.Diff.Opened

/-! What is read from a diff fits on lines: each text of a hunk comes from a single line of it. -/
namespace HunkReview
open Text

structure Hunk.OnLines (h : Hunk) : Prop where
  file : OneLine h.file
  context : OneLine h.context
  lines : ∀ l ∈ h.lines, OneLine l.content

theorem oneLine_filePath {line : List Char} (clean : '\n' ∉ line) {path : String}
    (found : filePath? line = some path) : OneLine path := by
  obtain ⟨old, ⟨cs, rfl, parted⟩, -⟩ := namesFile_of_filePath? found
  intro feed
  refine clean (List.mem_append_right _ ?_)
  rw [parted.text]
  exact List.mem_append_right _ (List.mem_append_right _ feed)

theorem oneLine_context {line : List Char} {header : HunkHeader}
    (read : HunkHeader.parse? line = some header) : OneLine header.context := by
  obtain ⟨t, -, tells⟩ := HunkHeader.exists_headerText read
  obtain ⟨front, back, split, -, -⟩ := tells.context.inside
  intro feed
  apply tells.oneLine
  simp [split, feed]

theorem oneLine_content {line : List Char} (clean : '\n' ∉ line) {l : DiffLine}
    (read : DiffLine.parse? line = some l) : OneLine l.content := by
  have written := DiffLine.isWritten_of_parse? read
  rw [IsWritten] at written
  exact fun feed => clean (written ▸ List.mem_cons_of_mem _ feed)

theorem oneLine_bodyOf {lines : List (List Char)} (clean : ∀ line ∈ lines, '\n' ∉ line) :
    ∀ l ∈ bodyOf lines, OneLine l.content := by
  intro l member
  obtain ⟨line, inside, read⟩ := List.mem_filterMap.mp member
  exact oneLine_content (clean line ((List.takeWhile_prefix _).subset inside)) read

theorem onLines_hunksFrom {file : Option String} (known : ∀ path, file = some path → OneLine path)
    {lines : List (List Char)} (clean : ∀ line ∈ lines, '\n' ∉ line) :
    ∀ h ∈ hunksFrom file lines, h.OnLines := by
  fun_induction hunksFrom file lines with
  | case1 => exact fun h member => nomatch member
  | case2 file line rest path found ih =>
    refine ih (fun other same => ?_) fun l inside => clean l (List.mem_cons_of_mem line inside)
    cases same
    exact oneLine_filePath (clean line List.mem_cons_self) found
  | case3 line rest other marked path header read ih =>
    have below := fun l inside => clean l (List.mem_cons_of_mem line inside)
    intro h member
    rcases List.mem_cons.mp member with rfl | member
    · exact ⟨known path rfl, oneLine_context read, oneLine_bodyOf below⟩
    · exact ih known below h member
  | case4 file line rest other marked closes ih =>
    exact ih known fun l inside => clean l (List.mem_cons_of_mem line inside)
  | case5 file line rest other unmarked ih =>
    exact ih known fun l inside => clean l (List.mem_cons_of_mem line inside)

theorem onLines_parseDiff (text : String) : ∀ h ∈ parseDiff text, h.OnLines := by
  rw [parseDiff_eq_hunksFrom]
  exact onLines_hunksFrom (by intro path named; cases named) fun _ member =>
    newline_not_mem_lines member

end HunkReview
