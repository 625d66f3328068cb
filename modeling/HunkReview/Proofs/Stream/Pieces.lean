import Mathlib.Data.List.Forall2
import Mathlib.Data.String.Basic
import HunkReview.Proofs.Stream.Runs

/-! A styled row in pieces. The runs of a row lie end to end between places of its text, from the first
byte to the last; so each of them has a slice of the text, and cutting the text by them loses nothing,
whatever spans it was styled with. -/
namespace HunkReview

/-- Runs that lie end to end from an offset of a text to its end, none of them empty. -/
inductive Tiles (text : String) : Nat → List Run → Prop
  | nil : Tiles text text.utf8ByteSize []
  | cons {offset : Nat} {r : Run} {rs : List Run} (begins : r.start = offset)
    (start : IsPlace text r.start) (stop : IsPlace text r.stop) (nonempty : r.start < r.stop)
    (rest : Tiles text r.stop rs) : Tiles text offset (r :: rs)

theorem Tiles.eq_nil {text : String} {offset : Nat} {runs : List Run} (tiles : Tiles text offset runs)
    (ended : text.utf8ByteSize ≤ offset) : runs = [] := by
  cases tiles with
  | nil => rfl
  | cons begins start stop nonempty rest =>
    have inside := stop.le_size
    omega

/-- Bounds in order, the last of them the end of the text, leave no gap between runs. -/
theorem tiles_runsBetween (spans : List Span) {text : String} {first : Nat} {bounds : List Nat}
    (sorted : (first :: bounds).Pairwise (· < ·)) (places : ∀ offset ∈ first :: bounds, IsPlace text offset)
    (whole : text.utf8ByteSize ∈ first :: bounds) : Tiles text first (runsBetween spans (first :: bounds)) := by
  induction bounds generalizing first with
  | nil =>
    obtain rfl : text.utf8ByteSize = first := by simpa using whole
    exact .nil
  | cons offset bounds ih =>
    obtain ⟨least, later⟩ := List.pairwise_cons.mp sorted
    obtain ⟨start, behind⟩ := List.forall_mem_cons.mp places
    have after := least offset List.mem_cons_self
    have stop := behind offset List.mem_cons_self
    -- the text does not end before the bound that comes next
    have beyond : text.utf8ByteSize ≠ first := by
      have := stop.le_size
      omega
    exact .cons rfl start stop after (ih later behind (List.mem_of_ne_of_mem beyond whole))

theorem tiles_styleRow (text : String) (spans : List Span) : Tiles text 0 (styleRow text spans).runs := by
  have sorted := pairwise_runBounds text spans
  have zero := zero_mem_runBounds text spans
  have whole := size_mem_runBounds text spans
  have places : ∀ offset ∈ runBounds text spans, IsPlace text offset :=
    fun _ member => (mem_runBounds.mp member).1
  simp only [styleRow]
  generalize runBounds text spans = bounds at sorted zero whole places
  cases bounds with
  | nil => cases zero
  | cons first bounds =>
    obtain rfl : first = 0 := by
      rcases List.mem_cons.mp zero with rfl | member
      · rfl
      · have := (List.pairwise_cons.mp sorted).1 0 member
        omega
    exact tiles_runsBetween spans sorted places whole

/-! ### Slices -/

def IsSlice (text : String) (start stop : Nat) (slice : String) : Prop :=
  ∃ before after, text = before ++ (slice ++ after) ∧ start = before.utf8ByteSize ∧
    stop = before.utf8ByteSize + slice.utf8ByteSize

structure Run.IsPiece (text : String) (r : Run) (piece : Option Style × List Char) : Prop where
  style : piece.1 = r.style
  slice : IsSlice text r.start r.stop (String.ofList piece.2)

theorem takeBytes_append (front rest : List Char) :
    takeBytes (String.ofList front).utf8ByteSize (front ++ rest) = (front, rest) := by
  rw [String.utf8ByteSize_ofList]
  induction front with
  | nil =>
    cases rest with
    | nil => rfl
    | cons c rest => exact if_neg (Nat.not_le.mpr c.utf8Size_pos)
  | cons c front ih => simp [takeBytes, ih]

/-- Cut by runs that begin after its front, a text gives what is behind the front. -/
theorem Tiles.pieces {text : String} {offset : Nat} {runs : List Run} (tiles : Tiles text offset runs)
    {front rest : String} (split : text = front ++ rest) (here : offset = front.utf8ByteSize) :
    List.Forall₂ (Run.IsPiece text) runs (cutRuns runs rest.toList) ∧
      (cutRuns runs rest.toList).flatMap (·.2) = rest.toList := by
  induction tiles generalizing front rest with
  | nil =>
    have nothing : rest = "" := by simpa [split] using here
    simp [nothing, cutRuns]
  | @cons offset r runs begins start stop nonempty tiles ih =>
    obtain ⟨left, right, same, ends⟩ := isPlace_iff.mp stop
    rcases append_cases (split.symm.trans same) with ⟨piece, rfl, rfl⟩ | ⟨piece, rfl, -⟩
    · have size : r.stop - r.start = (String.ofList piece.toList).utf8ByteSize := by
        simp [ends, begins, here]
      have cut := takeBytes_append piece.toList right.toList
      obtain ⟨pieces, whole⟩ := ih same ends
      rw [← size] at cut
      have first : r.IsPiece text (r.style, piece.toList) :=
        ⟨rfl, front, right, by simpa using split, begins.trans here, by simpa using ends⟩
      simp [cutRuns, cut, first, pieces, whole]
    · simp at here
      omega

/-- Each run of a styled text has its piece, and the pieces are the text. -/
theorem pieces_styleRow (text : String) (spans : List Span) :
    List.Forall₂ (Run.IsPiece text) (styleRow text spans).runs (styleRow text spans).pieces ∧
      (styleRow text spans).pieces.flatMap (·.2) = text.toList :=
  (tiles_styleRow text spans).pieces String.empty_append.symm rfl

end HunkReview
