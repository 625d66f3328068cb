import HunkReview.Proofs.Stream.Outline
import HunkReview.Proofs.Stream.Placed
import HunkReview.Stream.Layout

/-! From offsets back to rows. A hunk is placed where its first row begins in the whole text. As every
row has at least its line feed, rows begin at different offsets, and looking such an offset up gives
the row again; so the places of the hunks are the rows of their headers. -/
namespace HunkReview

/-! ### Rows that begin at an offset -/

theorem size_row_pos (r : Row) : 0 < r.size := by
  simp [size_row]

theorem length_takeWhile_rowStarts (offset : Nat) (before : List Row) (r : Row) (after : List Row) :
    ((rowStarts offset (before ++ r :: after)).takeWhile
      (· ≤ offset + rowsSize before)).length = before.length + 1 := by
  induction before generalizing offset with
  | nil =>
    have below := size_row_pos r
    have stops : (rowStarts (offset + r.size) after).takeWhile (· ≤ offset) = [] := by
      cases after with
      | nil => rfl
      | cons q after =>
        have next : ¬offset + r.size ≤ offset := by omega
        exact List.takeWhile_cons_of_neg (mt of_decide_eq_true next)
    simp [rowStarts, rowsSize, stops]
  | cons b before ih =>
    have rest := ih (offset + b.size)
    rw [Nat.add_assoc] at rest
    rw [List.cons_append, rowStarts, rowsSize, List.takeWhile_cons_of_pos (by simp), List.length_cons,
      rest, List.length_cons]

/-- The row found for the offset at which a row begins is that row. -/
theorem lastStartAt_rowStarts (before : List Row) (r : Row) (after : List Row) :
    lastStartAt (rowStarts 0 (before ++ r :: after)) (rowsSize before) = before.length := by
  have counted := length_takeWhile_rowStarts 0 before r after
  rw [Nat.zero_add] at counted
  rw [lastStartAt, counted, Nat.add_sub_cancel]

/-- The offsets of headers are looked up as the rows that are headers. -/
theorem map_lastStartAt_headerStarts (before after : List Row) :
    (headerStarts (rowsSize before) after).map (lastStartAt (rowStarts 0 (before ++ after))) =
      (after.map (·.tag)).findIdxs Tag.isHunkHeader before.length := by
  induction after generalizing before with
  | nil => rfl
  | cons r after ih =>
    have below := ih (before ++ [r])
    have next : rowsSize (before ++ [r]) = rowsSize before + r.size := by
      simp [rowsSize_append, rowsSize]
    rw [next, List.append_assoc, List.singleton_append, List.length_append,
      List.length_singleton] at below
    by_cases header : r.tag.isHunkHeader
    · simp [headerStarts, header, below, lastStartAt_rowStarts]
    · simp [headerStarts, header, below]

/-! ### Offsets of hunks -/

theorem headerStarts_append (offset : Nat) (before after : List Row) :
    headerStarts offset (before ++ after) =
      headerStarts offset before ++ headerStarts (offset + rowsSize before) after := by
  induction before generalizing offset with
  | nil => simp [headerStarts, rowsSize]
  | cons r before ih =>
    by_cases header : r.tag.isHunkHeader
    · simp [headerStarts, header, ih, rowsSize, Nat.add_assoc]
    · simp [headerStarts, header, ih, rowsSize, Nat.add_assoc]

theorem headerStarts_eq_nil {rows : List Row} (other : ∀ r ∈ rows, r.tag.isHunkHeader = false)
    (offset : Nat) : headerStarts offset rows = [] := by
  induction rows generalizing offset with
  | nil => rfl
  | cons r rows ih =>
    obtain ⟨here, below⟩ := List.forall_mem_cons.mp other
    simp [headerStarts, here, ih below]

namespace Session

def hunkStarts (s : Session) (offset : Nat) (before : Option String) : List ReviewHunk → List Nat
  | [] => []
  | h :: rest =>
    let top := if before = some h.file then [] else [fileBannerRow h.file]
    let bottom := if rest.head?.map (·.file) = some h.file then [] else [fileFooterRow h.file]
    let start := offset + rowsSize top
    start :: s.hunkStarts (start + rowsSize (s.hunkRows h ++ bottom)) (some h.file) rest

/-- A hunk has one header, in its first row. -/
theorem headerStarts_hunkRows (s : Session) (offset : Nat) (h : ReviewHunk) :
    headerStarts offset (s.hunkRows h) = [offset] := by
  have others : ∀ r ∈ h.sites.flatMap (s.siteRows h) ++ s.hunkCommentRows h,
      r.tag.isHunkHeader = false := by
    intro r member
    rcases List.mem_append.mp member with line | comment
    · obtain ⟨site, -, shown⟩ := List.mem_flatMap.mp line
      rcases tag_of_mem_siteRows shown with tag | tag <;> rw [tag] <;> rfl
    · rcases mem_hunkCommentRows comment with ⟨text, rfl⟩ | ⟨text, rfl⟩ <;> rfl
  rw [hunkRows_eq_sites, List.cons_append, headerStarts, headerStarts_eq_nil others, tag_headerRow]
  rfl

theorem headerStarts_fileRows (s : Session) (offset : Nat) (before : Option String)
    (hs : List ReviewHunk) :
    headerStarts offset (s.fileRows before hs) = s.hunkStarts offset before hs := by
  induction hs generalizing offset before with
  | nil => rfl
  | cons h rest ih =>
    have banner (offset : Nat) : headerStarts offset
        (if before = some h.file then [] else [fileBannerRow h.file]) = [] := by
      split <;> rfl
    have footer (offset : Nat) : headerStarts offset
        (if rest.head?.map (·.file) = some h.file then [] else [fileFooterRow h.file]) = [] := by
      split <;> rfl
    simp only [fileRows, hunkStarts, headerStarts_append, banner, footer, headerStarts_hunkRows, ih,
      rowsSize_append]
    simp [Nat.add_assoc]

/-- The headers' offsets are those at which the hunks' rows begin, one for each hunk in order. -/
theorem headerOffsets_stream (s : Session) (showHelp : Bool) :
    (s.stream showHelp).headerOffsets = s.hunkStarts (rowsSize (topRows showHelp)) none s.hunks := by
  by_cases empty : s.hunks = []
  · rw [Stream.headerOffsets, rows_stream_empty empty, empty]
    rfl
  · have top : headerStarts 0 (topRows showHelp) = [] := by cases showHelp <;> rfl
    have foot (offset : Nat) : headerStarts offset (s.footRows showHelp) = [] := by
      cases showHelp <;> rfl
    rw [Stream.headerOffsets, rows_stream empty, headerStarts_append, headerStarts_append, top, foot,
      headerStarts_fileRows, Nat.zero_add, List.nil_append, List.append_nil]

theorem length_hunkStarts (s : Session) (offset : Nat) (before : Option String)
    (hs : List ReviewHunk) : (s.hunkStarts offset before hs).length = hs.length := by
  induction hs generalizing offset before with
  | nil => rfl
  | cons h rest ih => simp [hunkStarts, ih]

theorem map_offset_placeHunks {hs : List ReviewHunk} {offsets : List Nat}
    (each : offsets.length = hs.length) : (placeHunks hs offsets).map (·.offset) = offsets := by
  induction hs generalizing offsets with
  | nil => simp [placeHunks, List.length_eq_zero_iff.mp each]
  | cons h hs ih =>
    cases offsets with
    | nil => simp at each
    | cons offset offsets => simp [placeHunks, ih (Nat.succ_inj.mp each)]

end Session

end HunkReview
