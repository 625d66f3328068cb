import HunkReview.Proofs.Stream.Output
import HunkReview.Proofs.Stream.Painted

/-! Layout loses no text. Whatever the spans are, a segment has one row, the row has the segment's text
up to the line feeds at its end, and the runs of the row cut that text into slices, end to end. -/
namespace HunkReview

/-- The row has the text of the segment, and its runs lie end to end over this text. -/
structure StyledRow.IsTiled (r : StyledRow) (segment : String) : Prop where
  text : ∃ feeds, segment = r.text ++ feeds ∧ ∀ c ∈ feeds.toList, c = '\n'
  ends : r.text.toList.getLast? ≠ some '\n'
  tiles : Tiles r.text 0 r.runs
  empty : r.text = "" → r.runs = []
  /-- What is written and drawn for a run is a slice of the text. -/
  pieces : List.Forall₂ (Run.IsPiece r.text) r.runs r.pieces
  whole : String.join (r.pieces.map fun piece => String.ofList piece.2) = r.text

theorem rowText_ends (segment : String) : (rowText segment).toList.getLast? ≠ some '\n' := by
  intro last
  have kept := Text.dropEndWhile_getLast? (· == '\n') segment.toList
  rw [rowText, String.toList_ofList] at last
  simpa using kept '\n' last

theorem IsRowOf.isTiled {r : StyledRow} {segment : String} (row : IsRowOf r segment) :
    r.IsTiled segment := by
  obtain ⟨spans, rfl⟩ := row
  have tiles := tiles_styleRow (rowText segment) spans
  obtain ⟨pieces, whole⟩ := pieces_styleRow (rowText segment) spans
  constructor
  case text => exact rowText_feeds segment
  case ends => exact rowText_ends segment
  case tiles => exact tiles
  case empty =>
    intro empty
    apply tiles.eq_nil
    simpa [styleRow] using empty
  case pieces => exact pieces
  case whole =>
    apply String.toList_injective
    simp only [String.toList_join, List.flatMap_map, String.toList_ofList]
    exact whole

/-- Laid out in rows, a text is all there: each segment has one row, in order, and the runs of a row
cut its text into slices that put together are the text. -/
theorem layout_isTiled (segments : List String) (spans : List Span) :
    List.Forall₂ StyledRow.IsTiled (layout segments spans) segments :=
  (layout_rowsOf segments spans).imp fun _ _ row => row.isTiled

end HunkReview
