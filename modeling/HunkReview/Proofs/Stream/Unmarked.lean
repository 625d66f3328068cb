import HunkReview.Proofs.Review.Parsed
import HunkReview.Proofs.Stream.Origin
import Mathlib.Data.List.Forall2

/-! Marks change how rows look, never which rows there are. Undecided hunks are shown change by change
and others line by line, yet sessions that differ in marks only have rows of the same tags, with the
same texts but for the headers of hunks and the footer. -/
namespace HunkReview

def Tag.TellsMarks (tag : Tag) : Prop :=
  tag = .helpFooter ∨ ∃ id, tag = .hunkHeader id

/-- The rows stand for the same, with the same text unless that tells of marks. -/
structure Row.SameButMarks (r q : Row) : Prop where
  tag : r.tag = q.tag
  text : ¬r.tag.TellsMarks → r.text = q.text

/-- The hunks differ in marks and in their places only. -/
def ReviewHunk.SameDiff (h g : ReviewHunk) : Prop :=
  h.toHunk = g.toHunk

namespace Row

theorem SameButMarks.refl (r : Row) : r.SameButMarks r :=
  ⟨rfl, fun _ => rfl⟩

/-- Rows that stand next to each other. -/
theorem sameButMarks_self (rows : List Row) : List.Forall₂ SameButMarks rows rows :=
  List.forall₂_same.mpr fun r _ => .refl r

end Row

namespace ReviewHunk.SameDiff

variable {h g : ReviewHunk}

theorem id (same : h.SameDiff g) : h.id = g.id :=
  congrArg Hunk.id same

theorem file (same : h.SameDiff g) : h.file = g.file :=
  congrArg Hunk.file same

theorem sites (same : h.SameDiff g) : h.sites = g.sites :=
  congrArg (fun d : Hunk => sitesFrom none d.numbered) same

/-- A line is shown with the same text in a change as alone. -/
theorem row (same : h.SameDiff g) (site : Site) : (site.row h).SameButMarks (site.row g) where
  tag := by rw [Site.tag_row, Site.tag_row, same.id]
  text _ := by rw [Site.text_row, Site.text_row]

end ReviewHunk.SameDiff

namespace Session

variable {s t : Session} {h g : ReviewHunk}

theorem sameButMarks_headerRow (s t : Session) (same : h.SameDiff g) :
    (s.headerRow h).SameButMarks (t.headerRow g) where
  tag := by rw [tag_headerRow, tag_headerRow, same.id]
  text shows := absurd (.inr ⟨h.id, s.tag_headerRow h⟩) shows

theorem sameButMarks_siteRows (comments : s.comments = t.comments) (same : h.SameDiff g)
    (site : Site) : List.Forall₂ Row.SameButMarks (s.siteRows h site) (t.siteRows g site) := by
  have below : s.lineCommentRows h site.line = t.lineCommentRows g site.line := by
    simp only [lineCommentRows, lineComments, commentsFor, comments, same.id]
  unfold siteRows
  rw [below]
  exact .cons (same.row site) (Row.sameButMarks_self _)

theorem hunkCommentRows_eq (comments : s.comments = t.comments) (same : h.SameDiff g) :
    s.hunkCommentRows h = t.hunkCommentRows g := by
  simp only [hunkCommentRows, commentsFor, comments, same.id]

theorem sameButMarks_hunkRows (comments : s.comments = t.comments) (same : h.SameDiff g) :
    List.Forall₂ Row.SameButMarks (s.hunkRows h) (t.hunkRows g) := by
  rw [hunkRows_eq_sites, hunkRows_eq_sites, hunkCommentRows_eq comments same, same.sites]
  have lines : List.Forall₂ Row.SameButMarks (g.sites.flatMap (s.siteRows h))
      (g.sites.flatMap (t.siteRows g)) := by
    refine List.rel_flatMap (R := Eq) (List.forall₂_same.mpr fun _ _ => rfl) ?_
    rintro site _ rfl
    exact sameButMarks_siteRows comments same site
  refine List.rel_append (.cons (sameButMarks_headerRow s t same) lines) ?_
  exact Row.sameButMarks_self _

/-- Banners and footers are between the same hunks, since those have the same files. -/
theorem sameButMarks_fileRows (comments : s.comments = t.comments) {hs gs : List ReviewHunk}
    (same : List.Forall₂ ReviewHunk.SameDiff hs gs) (before : Option String) :
    List.Forall₂ Row.SameButMarks (s.fileRows before hs) (t.fileRows before gs) := by
  induction same generalizing before with
  | nil => exact .nil
  | @cons h g hs gs first rest ih =>
    have next : hs.head?.map (·.file) = gs.head?.map (·.file) := by
      cases rest with
      | nil => rfl
      | cons after _ => exact congrArg some after.file
    unfold fileRows
    rw [first.file, next]
    refine List.rel_append (List.rel_append (List.rel_append ?_ ?_) ?_) (ih _)
    · exact Row.sameButMarks_self _
    · exact sameButMarks_hunkRows comments first
    · exact Row.sameButMarks_self _

/-- The rows of sessions that differ in marks only. -/
theorem sameButMarks_stream (hunks : s.hunks.map (·.toHunk) = t.hunks.map (·.toHunk))
    (comments : s.comments = t.comments) (showHelp : Bool) :
    List.Forall₂ Row.SameButMarks (s.stream showHelp).rows (t.stream showHelp).rows := by
  have empty : s.hunks.isEmpty = t.hunks.isEmpty := by
    simpa only [List.isEmpty_map] using congrArg List.isEmpty hunks
  have same : List.Forall₂ ReviewHunk.SameDiff s.hunks t.hunks := by
    rw [← List.forall₂_eq_eq_eq, List.forall₂_map_left_iff, List.forall₂_map_right_iff] at hunks
    exact hunks
  have shown := sameButMarks_fileRows comments same none
  unfold stream
  rw [empty]
  dsimp only
  split
  · exact Row.sameButMarks_self _
  · split
    · refine List.rel_append (List.rel_append (Row.sameButMarks_self _) shown) ?_
      exact .cons (.refl _) (.cons ⟨rfl, fun shows => absurd (.inl rfl) shows⟩ .nil)
    · exact shown

end Session

end HunkReview
