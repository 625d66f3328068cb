import HunkReview.Proofs.Diff.FileLine

/-! One pass over the lines finds what looking ahead finds. `hunksFrom` takes a hunk's body at once,
up to the next boundary; the scan collects it line by line into the open hunk. -/
namespace HunkReview

def isBoundary (line : List Char) : Bool :=
  (filePath? line).isSome || isHunkLine line

def bodyOf (lines : List (List Char)) : List DiffLine :=
  (lines.takeWhile (!isBoundary ·)).filterMap DiffLine.parse?

/-- The hunks among the lines when `file` is the file named last. -/
def hunksFrom (file : Option String) : List (List Char) → List Hunk
  | [] => []
  | line :: rest =>
    match filePath? line with
    | some path => hunksFrom (some path) rest
    | none =>
      if isHunkLine line then
        match file, HunkHeader.parse? line with
        | some path, some header => ⟨header, path, bodyOf rest⟩ :: hunksFrom file rest
        | _, _ => hunksFrom file rest
      else hunksFrom file rest

theorem hunksFrom_fileLine {line : List Char} {path : String} (found : filePath? line = some path)
    (file : Option String) (rest : List (List Char)) :
    hunksFrom file (line :: rest) = hunksFrom (some path) rest := by
  simp only [hunksFrom, found]

theorem not_isBoundary_iff {line : List Char} :
    isBoundary line = false ↔ filePath? line = none ∧ isHunkLine line = false := by
  simp [isBoundary]

theorem hunksFrom_inside {line : List Char} (inside : isBoundary line = false)
    (file : Option String) (rest : List (List Char)) :
    hunksFrom file (line :: rest) = hunksFrom file rest := by
  obtain ⟨other, unmarked⟩ := not_isBoundary_iff.mp inside
  simp [hunksFrom, other, unmarked]

@[simp] theorem bodyOf_nil : bodyOf [] = [] := rfl

theorem bodyOf_boundary {line : List Char} (boundary : isBoundary line) (rest : List (List Char)) :
    bodyOf (line :: rest) = [] := by
  simp [bodyOf, boundary]

theorem bodyOf_inside {line : List Char} (inside : isBoundary line = false)
    (rest : List (List Char)) :
    bodyOf (line :: rest) = (DiffLine.parse? line).toList ++ bodyOf rest := by
  unfold bodyOf
  rw [List.takeWhile_cons_of_pos (by simp [inside]), List.filterMap_cons]
  cases DiffLine.parse? line <;> rfl

namespace Scan

/-- The open hunk with the lines that the rest of the diff adds to it. -/
def openedWith (s : Scan) (body : List DiffLine) : List Hunk :=
  (s.opened.map fun h => { h with lines := h.lines.reverse ++ body }).toList

@[simp] theorem openedWith_none (closed : List Hunk) (file : Option String) (body : List DiffLine) :
    openedWith ⟨closed, file, none⟩ body = [] := rfl

theorem reverse_close (s : Scan) : s.close.reverse = s.closed.reverse ++ s.openedWith [] := by
  obtain ⟨closed, file, opened⟩ := s
  cases opened <;> simp [close, openedWith]

theorem step_fileLine {line : List Char} {path : String} (found : filePath? line = some path)
    (s : Scan) : s.step line = ⟨s.close, some path, none⟩ := by
  simp only [step, found]

theorem step_hunkLine {line : List Char} (other : filePath? line = none)
    (marked : isHunkLine line) (s : Scan) :
    s.step line = ⟨s.close, s.file, s.openHunk line⟩ := by
  simp only [step, other, marked, if_true]

theorem step_inside {line : List Char} (inside : isBoundary line = false) (s : Scan) :
    s.step line = s.extend line := by
  obtain ⟨other, unmarked⟩ := not_isBoundary_iff.mp inside
  simp [step, other, unmarked]

/-- A line inside a body leaves the closed hunks and the file alone. -/
theorem extend_frame (s : Scan) (line : List Char) :
    (s.extend line).closed = s.closed ∧ (s.extend line).file = s.file := by
  unfold extend
  split <;> exact ⟨rfl, rfl⟩

theorem openedWith_extend (s : Scan) (line : List Char) (body : List DiffLine) :
    (s.extend line).openedWith body =
      s.openedWith ((DiffLine.parse? line).toList ++ body) := by
  obtain ⟨closed, file, opened⟩ := s
  cases opened with
  | none => rfl
  | some h => cases read : DiffLine.parse? line <;> simp [extend, openedWith, read]

/-- The hunk that a hunk line opens, once its body has been read. -/
theorem openedWith_openHunk (s : Scan) {line : List Char} (other : filePath? line = none)
    (marked : isHunkLine line) (closed : List Hunk) (rest : List (List Char)) :
    openedWith ⟨closed, s.file, s.openHunk line⟩ (bodyOf rest) ++ hunksFrom s.file rest =
      hunksFrom s.file (line :: rest) := by
  simp only [hunksFrom, other, marked, if_true, openHunk, openedWith]
  cases s.file with
  | none => rfl
  | some path => cases HunkHeader.parse? line <;> rfl

/-- What a scan finds from any state on: the closed hunks, the open one with the rest of its body,
and the hunks that the remaining lines open. -/
theorem hunks_foldl (s : Scan) (lines : List (List Char)) :
    (lines.foldl step s).hunks =
      s.closed.reverse ++ s.openedWith (bodyOf lines) ++ hunksFrom s.file lines := by
  induction lines generalizing s with
  | nil => simp [hunks, reverse_close, hunksFrom]
  | cons line rest ih =>
    rw [List.foldl_cons, ih]
    cases boundary : isBoundary line with
    | false =>
      rw [step_inside boundary, (s.extend_frame line).1, (s.extend_frame line).2,
        openedWith_extend, bodyOf_inside boundary, hunksFrom_inside boundary]
    | true =>
      rw [bodyOf_boundary boundary]
      cases found : filePath? line with
      | some path => simp [step_fileLine found, reverse_close, hunksFrom_fileLine found]
      | none =>
        have marked : isHunkLine line := by simpa [isBoundary, found] using boundary
        rw [step_hunkLine found marked, ← openedWith_openHunk s found marked s.close rest,
          reverse_close, List.append_assoc, List.append_assoc]

end Scan

theorem parseDiff_eq_hunksFrom (text : String) :
    parseDiff text = hunksFrom none (Text.lines text.toList) := by
  rw [parseDiff, Scan.hunks_foldl]
  rfl

end HunkReview
