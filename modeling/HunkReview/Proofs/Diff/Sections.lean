import HunkReview.Proofs.Diff.Opened

/-! Sections of files. A section begins with a line `diff --git …`, but only one that names its file as
`a/… b/…` is read; where the paths are quoted, it is passed over like any other line. The hunks of an
unread section then go on under the file of the section above, whose last hunk stays open. -/
namespace HunkReview

def IsSectionLine (line : List Char) : Prop :=
  "diff --git ".toList <+: line

/-- The line begins a section but does not name its file as it has to. -/
def IsUnreadSection (line : List Char) : Prop :=
  IsSectionLine line ∧ ¬IsFileLine line

instance : DecidablePred IsSectionLine := fun _ => inferInstanceAs (Decidable (_ <+: _))

instance : DecidablePred IsFileLine := fun line =>
  decidable_of_iff (filePath? line ≠ none) (by rw [Ne, filePath?_eq_none_iff, not_not])

instance : DecidablePred IsUnreadSection := fun _ => inferInstanceAs (Decidable (_ ∧ _))

/-- Line `k` gives the hunk its numbers, and line `j` above it its file; the sections that begin
between them are not read. -/
structure InSection (ls : List (List Char)) (j k : Nat) (h : Hunk) : Prop where
  below : j < k
  file : ∃ line, ls[j]? = some line ∧ IsSectionLine line ∧ NamesFile line h.file.toList
  header : ∃ line, ls[k]? = some line ∧ HunkHeader.parse? line = some h.toHunkHeader
  between : ∀ i line, j < i → i < k → ls[i]? = some line → IsSectionLine line → IsUnreadSection line

theorem IsFileLine.isSectionLine {line : List Char} (isFile : IsFileLine line) :
    IsSectionLine line := by
  obtain ⟨old, path, cs, rfl, -⟩ := isFile
  have longer : "diff --git a/".toList = "diff --git ".toList ++ "a/".toList := by decide
  rw [IsSectionLine, longer, List.append_assoc]
  exact List.prefix_append _ _

theorem OpenedAt.exists_inSection {ls : List (List Char)} {k : Nat} {h : Hunk}
    (opened : OpenedAt ls k h) : ∃ j, InSection ls j k h := by
  obtain ⟨line, here, -, -, read⟩ := opened.header
  obtain ⟨j, above, before, found, named, nearest⟩ := opened.file
  exact ⟨j, before, ⟨above, found, named.isFileLine.isSectionLine, named⟩, ⟨line, here, read⟩,
    fun i other lt gt at_ begins => ⟨begins, nearest i other lt gt at_⟩⟩

/-- The line of an unread section neither closes the open hunk nor changes the file. -/
theorem Scan.step_unreadSection {line : List Char} (unread : IsUnreadSection line) (s : Scan) :
    s.step line = s := by
  obtain ⟨⟨rest, rfl⟩, other⟩ := unread
  have noFile := filePath?_eq_none_iff.mpr other
  have noHunk : isHunkLine ("diff --git ".toList ++ rest) = false := rfl
  have noBody : DiffLine.parse? ("diff --git ".toList ++ rest) = none := rfl
  rw [step_inside (not_isBoundary_iff.mpr ⟨noFile, noHunk⟩), extend, noBody]
  cases s.opened <;> rfl

theorem Scan.foldl_unreadSections (s : Scan) (ls : List (List Char)) :
    (ls.filter (¬IsUnreadSection ·)).foldl step s = ls.foldl step s := by
  induction ls generalizing s with
  | nil => rfl
  | cons line ls ih =>
    by_cases unread : IsUnreadSection line
    · rw [List.filter_cons_of_neg (by simpa using unread), ih, List.foldl_cons,
        s.step_unreadSection unread]
    · rw [List.filter_cons_of_pos (by simpa using unread), List.foldl_cons, List.foldl_cons, ih]

/-- No section that is read swallows the hunks of the next one: between the line that names a hunk's
file and the line of its numbers only unread sections begin. Those are as if their first lines were
not there, so their hunks are filed under the file above. -/
theorem parseDiff_inSection (text : String) :
    let ls := Text.lines text.toList
    (∃ ks : List Nat, ks.Pairwise (· < ·) ∧
      List.Forall₂ (fun k h => ∃ j, InSection ls j k h) ks (parseDiff text)) ∧
    parseDiff text = ((ls.filter (¬IsUnreadSection ·)).foldl Scan.step {}).hunks := by
  intro ls
  constructor
  · have above (path : String) : none = some path ↔ FileAbove ls 0 path.toList :=
      ⟨nofun, fun above => absurd above (not_fileAbove_zero ls _)⟩
    obtain ⟨ks, sorted, -, opened⟩ := hunksFrom_openedFrom ls 0 none above
    rw [parseDiff_eq_hunksFrom]
    exact ⟨ks, sorted, opened.imp fun k h at_ => at_.exists_inSection⟩
  · rw [Scan.foldl_unreadSections]
    rfl

def quotedSection : String :=
  "diff --git a/kept b/kept\n@@ -1 +1 @@\n-a\n+b\n" ++
    "diff --git \"a/caf\\303\\251\" \"b/caf\\303\\251\"\n@@ -1 +1 @@\n-c\n+d\n"

/-- The hunk of the quoted file is taken for a second hunk of the file above. -/
theorem quotedSection_swallowed :
    let ls := Text.lines quotedSection.toList
    parseDiff quotedSection =
      [⟨⟨.clamp 1, .clamp 1, .clamp 1, .clamp 1, ""⟩, "kept", [⟨.deletion, "a"⟩, ⟨.addition, "b"⟩]⟩,
        ⟨⟨.clamp 1, .clamp 1, .clamp 1, .clamp 1, ""⟩, "kept", [⟨.deletion, "c"⟩, ⟨.addition, "d"⟩]⟩] ∧
      ls[5]? = some "@@ -1 +1 @@".toList ∧ ∃ line, ls[4]? = some line ∧ IsUnreadSection line := by
  have lines : Text.lines quotedSection.toList =
      ["diff --git a/kept b/kept".toList, "@@ -1 +1 @@".toList, "-a".toList, "+b".toList,
        "diff --git \"a/caf\\303\\251\" \"b/caf\\303\\251\"".toList,
        "@@ -1 +1 @@".toList, "-c".toList, "+d".toList] := by
    decide +kernel
  rw [parseDiff, lines]
  exact ⟨by decide +kernel, rfl, _, rfl, by decide +kernel⟩

end HunkReview
