import HunkReview.Proofs.Export.Listing
import HunkReview.Proofs.Stream.Outline
import Mathlib.Algebra.GroupWithZero.Nat
import Mathlib.Data.List.Dedup

/-! The report's summary against the sections below it. Hunks, verdicts and staged hunks are counted
as the sections show them. Files are counted by the runs of neighbouring hunks, so a file that the
diff comes back to has one section but is counted again. -/
namespace HunkReview

namespace HunkSection

def shown (h : HunkSection) : List Char × List Char :=
  let line := (Text.stripStart? "**Verdict:** ".toList h.verdictLine.toList).getD []
  (Text.trimEnd (line.takeWhile (· ≠ '(')), line.dropWhile (· ≠ '('))

def names (h : HunkSection) (v : Verdict) : Bool :=
  h.shown.1 == v.label.toList

def isMarked (h : HunkSection) (mark : String) : Bool :=
  h.shown.2 == '(' :: mark.toList ++ [')']

theorem shown_eq (h : HunkSection) :
    h.shown = (h.verdict.label.toList,
      if h.staging = .pending then [] else '(' :: h.staging.name.toList ++ [')']) := by
  -- no other field of the section is in its verdict line
  have line : h.verdictLine = verdictLine ⟨.clamp 0, "", h.verdict, h.staging, []⟩ := rfl
  rw [shown, line]
  cases h.verdict <;> cases h.staging <;> decide +kernel

theorem names_eq (h : HunkSection) (v : Verdict) : h.names v = (h.verdict == v) := by
  rw [names, shown_eq]
  dsimp only
  cases h.verdict <;> cases v <;> decide

theorem isMarked_staged (h : HunkSection) : h.isMarked "staged" = (h.staging == .staged) := by
  rw [isMarked, shown_eq]
  dsimp only
  cases h.staging <;> decide

end HunkSection

namespace Report

def sections (r : Report) : List HunkSection :=
  r.files.flatMap (·.hunks)

def opening (r : Report) : String :=
  "# Code Review\n\n_Generated: " ++ r.generated.toMinute ++ "_\n\n" ++ requestText r.request ++
    feedbackText r.feedback

/-- A summary that counts hunk sections by what their verdict lines show. -/
def summaryOf (sections : List HunkSection) (files : Nat) : String :=
  "## Summary\n\n" ++
    String.join (Verdict.all.map fun v =>
      "- " ++ v.label ++ ": " ++ toString (sections.countP (·.names v)) ++ "\n") ++
    "- " ++ toString sections.length ++ " hunks in " ++ toString files ++ " files, " ++
    toString (sections.countP (·.isMarked "staged")) ++ " staged\n\n"

end Report

/-- Every section names one verdict, so the counts of all verdicts make up all sections. -/
theorem sum_countP_names (sections : List HunkSection) :
    (Verdict.all.map fun v => sections.countP (·.names v)).sum = sections.length := by
  have parts :=
    Listing.perm_flatMap_filter HunkSection.verdict sections (show Verdict.all.Nodup by decide)
  have all : sections.filter (·.verdict ∈ Verdict.all) = sections :=
    List.filter_eq_self.mpr fun h _ => decide_eq_true (Verdict.mem_all h.verdict)
  rw [all] at parts
  simp only [HunkSection.names_eq, List.countP_eq_length_filter]
  rw [← List.length_flatMap]
  exact parts.length_eq

namespace Session

/-- The files of the runs of neighbouring hunks: each file once for every time the diff comes to it. -/
def visited (s : Session) : List String :=
  (fileRuns s.hunks).map (·.file)

theorem length_visited (s : Session) : s.visited.length = s.fileCount := by
  rw [visited, List.length_map, length_fileRuns]
  rfl

theorem mem_visited (s : Session) (file : String) :
    file ∈ s.visited ↔ ∃ h ∈ s.hunks, h.file = file := by
  have cover := (areRunsOf_fileRuns s.hunks).cover
  constructor
  · intro member
    obtain ⟨run, inside, rfl⟩ := List.mem_map.mp member
    obtain ⟨h, first⟩ := List.exists_mem_of_ne_nil _ run.nonempty
    exact ⟨h, cover ▸ List.mem_flatMap_of_mem inside first, run.ofFile h first⟩
  · rintro ⟨h, member, rfl⟩
    rw [← cover] at member
    obtain ⟨run, inside, ofRun⟩ := List.mem_flatMap.mp member
    exact List.mem_map.mpr ⟨run, inside, (run.ofFile h ofRun).symm⟩

/-- Each visited file has one section. -/
theorem length_files (s : Session) (now : Instant) :
    (s.report now).files.length = s.visited.dedup.length := by
  have of := s.listing_of
  have files : (s.listing.map (·.1)).Perm s.visited.dedup := by
    refine (List.perm_ext_iff_of_nodup of.nodup_files s.visited.nodup_dedup).mpr fun file => ?_
    rw [of.files, List.mem_dedup, mem_visited]
  have length := files.length_eq
  rw [List.length_map, listing, List.length_map] at length
  rw [report, List.length_map, length]

theorem perm_sections (s : Session) (now : Instant) :
    (s.report now).sections.Perm (s.hunks.map s.hunkSection) := by
  have sections : (s.report now).sections = s.listing.hunks.map s.hunkSection := by
    rw [Report.sections, report, listing, Listing.hunks]
    simp only [List.flatMap_map, List.map_flatMap, List.map_map]
    rfl
  rw [sections]
  exact s.listing_of.perm_hunks.map _

/-- What is counted of hunks is counted of their sections. -/
theorem countP_sections (s : Session) (now : Instant) {p : ReviewHunk → Bool}
    {q : HunkSection → Bool} (same : ∀ h, q (s.hunkSection h) = p h) :
    (s.report now).sections.countP q = s.hunks.countP p := by
  rw [(s.perm_sections now).countP_eq, List.countP_map]
  exact List.countP_congr fun h _ => by rw [Function.comp, same]

theorem length_sections (s : Session) (now : Instant) :
    (s.report now).sections.length = s.hunks.length := by
  rw [(s.perm_sections now).length_eq, List.length_map]

theorem summaryText_report (s : Session) (now : Instant) :
    (s.report now).summaryText =
      Report.summaryOf (s.report now).sections s.visited.length := by
  have named (v : Verdict) : (s.report now).sections.countP (·.names v) =
      s.hunks.countP (·.verdict == v) :=
    s.countP_sections now fun h => (s.hunkSection h).names_eq v
  have staged : (s.report now).sections.countP (·.isMarked "staged") = s.stagedCount :=
    s.countP_sections now fun h => (s.hunkSection h).isMarked_staged
  have lines : (s.report now).verdicts.map (fun count =>
      "- " ++ count.1.label ++ ": " ++ toString count.2 ++ "\n") = Verdict.all.map fun v =>
        "- " ++ v.label ++ ": " ++ toString ((s.report now).sections.countP (·.names v)) ++ "\n" := by
    have counts : (s.report now).verdicts = s.verdictCounts := rfl
    rw [counts, verdictCounts, List.map_map]
    refine List.map_congr_left fun v _ => ?_
    rewrite [named]
    rfl
  unfold Report.summaryText Report.summaryOf
  rewrite [lines, staged, length_sections, length_visited]
  rfl

/-- The numbers of the summary are counts of the sections that follow, and the verdicts' numbers
add up. The number of files alone is another: a file is counted each time the diff comes to it, so
it is the number of the files' sections just if the diff comes back to no file. -/
theorem summary_report (s : Session) (now : Instant) :
    let r := s.report now
    s.exportReport now = r.opening ++ Report.summaryOf r.sections s.visited.length ++
      (if r.sections = [] then "_No changes to review._\n"
        else String.join (r.files.map FileSection.text)) ∧
    (Verdict.all.map fun v => r.sections.countP (·.names v)).sum = r.sections.length ∧
    r.files.length ≤ s.visited.length ∧
    (s.visited.length = r.files.length ↔ s.visited.Nodup) := by
  refine ⟨?_, sum_countP_names _, ?_, ?_⟩
  · have empty : (s.report now).sections = [] ↔ (s.report now).hunkCount = 0 := by
      rw [← List.length_eq_zero_iff, length_sections]
      rfl
    rw [← summaryText_report]
    simp only [empty]
    rfl
  · rw [length_files]
    exact s.visited.dedup_sublist.length_le
  · rw [length_files]
    constructor
    · intro same
      have whole := s.visited.dedup_sublist.eq_of_length same.symm
      exact whole ▸ s.visited.nodup_dedup
    · intro distinct
      rw [distinct.dedup]

def comesBack : Session :=
  applyDiff {} (parseDiff ("diff --git a/f b/f\n@@ -1 +1 @@\n-a\n+b\n" ++
    "diff --git a/g b/g\n@@ -1 +1 @@\n-c\n+d\ndiff --git a/f b/f\n@@ -9 +9 @@\n-e\n+f\n"))

/-- The summary says three files, and two sections follow. -/
theorem summary_counts_file_twice :
    (∃ before, comesBack.exportReport {} = before ++ "- 3 hunks in 3 files, 0 staged\n\n" ++
      String.join ((comesBack.report {}).files.map FileSection.text)) ∧
    (comesBack.report {}).files.map (·.file) = ["f", "g"] := by
  refine ⟨⟨(comesBack.report {}).opening ++ "## Summary\n\n- APPROVED: 0\n- NEEDS CHANGES: 0\n" ++
    "- REJECTED: 0\n- QUESTION: 0\n- PENDING: 3\n", ?_⟩, ?_⟩
  · decide +kernel
  · decide +kernel

end Session

end HunkReview
