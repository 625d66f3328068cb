import HunkReview.Proofs.Review.Parsed
import HunkReview.Proofs.Stream.Sites

/-! Rendering again. Rendering records where the hunks' headers begin and reads nothing of what was
recorded before, so a rendered session is shown as it was. -/
namespace HunkReview

def ReviewHunk.unplaced (h : ReviewHunk) : ReviewHunk :=
  { h with offset := 0 }

def Session.unplaced (s : Session) : Session :=
  { s with hunks := s.hunks.map ReviewHunk.unplaced }

namespace Session

/-- The offsets recorded last are the ones that stay. -/
theorem placeHunks_placeHunks (hs : List ReviewHunk) (offsets : List Nat) :
    placeHunks (placeHunks hs offsets) offsets = placeHunks hs offsets := by
  fun_induction placeHunks hs offsets with
  | case1 h hs offset offsets ih => rw [placeHunks, ih]
  | case2 hs offsets short =>
    rw [placeHunks]
    exact short

theorem hunk?_unplaced (s : Session) (id : HunkId) :
    s.unplaced.hunk? id = (s.hunk? id).map ReviewHunk.unplaced :=
  List.find?_map

theorem headerRow_unplaced (s : Session) (h : ReviewHunk) :
    s.unplaced.headerRow h.unplaced = s.headerRow h := by
  have text : s.unplaced.headerText h.unplaced = s.headerText h := by
    simp only [headerText, stagingOf, hunk?_unplaced, Option.map_map]
    rfl
  simp only [headerRow, text]
  rfl

theorem hunkRows_unplaced (s : Session) (h : ReviewHunk) :
    s.unplaced.hunkRows h.unplaced = s.hunkRows h := by
  rw [hunkRows_eq_sites, hunkRows_eq_sites, headerRow_unplaced]
  rfl

theorem fileRows_unplaced (s : Session) (before : Option String) (hs : List ReviewHunk) :
    s.unplaced.fileRows before (hs.map ReviewHunk.unplaced) = s.fileRows before hs := by
  induction hs generalizing before with
  | nil => rfl
  | cons h rest ih =>
    have next : (rest.map ReviewHunk.unplaced).head?.map (·.file) = rest.head?.map (·.file) := by
      cases rest <;> rfl
    simp only [List.map_cons, fileRows, next, hunkRows_unplaced]
    exact congrArg _ (ih _)

/-- The places do not show. -/
theorem stream_unplaced (s : Session) (showHelp : Bool) :
    s.unplaced.stream showHelp = s.stream showHelp := by
  have files := s.fileRows_unplaced none s.hunks
  have staged : s.unplaced.stagedCount = s.stagedCount := List.countP_map
  have summary : s.unplaced.summary = s.summary := by
    simp only [Session.summary, staged]
    simp only [unplaced, List.length_map]
  have empty : s.unplaced.hunks.isEmpty = s.hunks.isEmpty := List.isEmpty_map
  simp only [stream, empty, summary]
  rw [← files]
  rfl

theorem stream_placeHunks (s : Session) (offsets : List Nat) (showHelp : Bool) :
    ({ s with hunks := placeHunks s.hunks offsets } : Session).stream showHelp =
      s.stream showHelp := by
  have same : ({ s with hunks := placeHunks s.hunks offsets } : Session).unplaced = s.unplaced := by
    have hunks := map_placeHunks ReviewHunk.unplaced (fun _ _ => rfl) s.hunks offsets
    simp only [unplaced, hunks]
  rw [← stream_unplaced, same, stream_unplaced]

@[simp] theorem stream_render (s : Session) (showHelp again : Bool) :
    (s.render showHelp).1.stream again = s.stream again :=
  s.stream_placeHunks _ again

/-- Rendering a second time changes nothing and shows the same. -/
theorem render_render (s : Session) (showHelp : Bool) :
    (s.render showHelp).1.render showHelp = s.render showHelp := by
  have shown := s.stream_render showHelp showHelp
  have placed := placeHunks_placeHunks s.hunks (s.stream showHelp).headerOffsets
  simp only [render] at shown ⊢
  rw [shown, placed]

theorem fileRows_congr {s t : Session} (before : Option String) {hs : List ReviewHunk}
    (same : ∀ g ∈ hs, t.hunkRows g = s.hunkRows g) : t.fileRows before hs = s.fileRows before hs := by
  induction hs generalizing before with
  | nil => rfl
  | cons g rest ih =>
    obtain ⟨here, below⟩ := List.forall_mem_cons.mp same
    rw [fileRows, fileRows, here, ih _ below]

/-- Whether a refresh is under way does not show. -/
theorem render_guarded (s : Session) (refreshing showHelp : Bool) :
    ({ s with refreshing } : Session).render showHelp =
      ({ (s.render showHelp).1 with refreshing }, (s.render showHelp).2) := by
  have rows : ({ s with refreshing } : Session).fileRows none s.hunks = s.fileRows none s.hunks := by
    apply fileRows_congr
    intro g _
    rw [hunkRows_eq_sites, hunkRows_eq_sites]
    rfl
  have shown : ({ s with refreshing } : Session).stream showHelp = s.stream showHelp := by
    simp only [stream, rows]
    rfl
  simp only [render, shown]

end Session

end HunkReview
