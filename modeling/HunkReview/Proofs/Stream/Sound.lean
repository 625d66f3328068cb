import Mathlib.Algebra.GroupWithZero.Nat
import HunkReview.Proofs.Review.Parsed
import HunkReview.Proofs.Stream.Rows

/-! The bytes of a rendered stream. Rows are put one after the other, and their spans are moved along
with them; so sound rows make a sound stream, whatever has been done to the session before. -/
namespace HunkReview

def Stream.text (t : Stream) : String :=
  String.join t.segments

/-- The span lies in the text of one segment, in front of the segment's line feed. -/
def Span.InOneSegment (s : Span) (segments : List String) : Prop :=
  ∃ before text after, segments = before ++ (text ++ "\n") :: after ∧
    (String.join before).utf8ByteSize ≤ s.start ∧
    s.stop ≤ (String.join before).utf8ByteSize + text.utf8ByteSize

/-- The sizes and spans of a stream fit its text, and each segment is one line. -/
structure Stream.Sound (t : Stream) : Prop where
  size : t.size = (t.segments.map String.utf8ByteSize).sum
  segments : ∀ segment ∈ t.segments, ∃ text, segment = text ++ "\n" ∧ Text.OneLine text
  spans : ∀ s ∈ t.spans, s.InOneSegment t.segments ∧ s.IsIn t.text

theorem utf8ByteSize_join (texts : List String) :
    (String.join texts).utf8ByteSize = (texts.map String.utf8ByteSize).sum := by
  induction texts with
  | nil => rfl
  | cons text texts ih =>
    rw [String.join_cons, String.utf8ByteSize_append, ih, List.map_cons, List.sum_cons]

theorem rowsSize_eq_sum (rows : List Row) :
    rowsSize rows = ((rows.map Row.segment).map String.utf8ByteSize).sum := by
  induction rows with
  | nil => rfl
  | cons r rows ih => rw [rowsSize, ih, List.map_cons, List.map_cons, List.sum_cons, Row.size]

/-- The running offset of a row is the size of the text before it. -/
theorem mem_spansFrom {s : Span} {offset : Nat} {rows : List Row} (member : s ∈ spansFrom offset rows) :
    ∃ before r after own, rows = before ++ r :: after ∧ own ∈ r.spans ∧
      s = own.shift (offset + rowsSize before) := by
  induction rows generalizing offset with
  | nil => cases member
  | cons r rows ih =>
    rcases List.mem_append.mp member with here | below
    · obtain ⟨own, inside, rfl⟩ := List.mem_map.mp here
      exact ⟨[], r, rows, own, rfl, inside, rfl⟩
    · obtain ⟨before, q, after, own, rfl, inside, rfl⟩ := ih below
      refine ⟨r :: before, q, after, own, rfl, inside, ?_⟩
      rw [rowsSize, Nat.add_assoc]

theorem sound_of_rows {t : Stream} (sound : AllSound t.rows) : t.Sound where
  size := rowsSize_eq_sum t.rows
  segments := by
    intro segment member
    obtain ⟨r, inside, rfl⟩ := List.mem_map.mp member
    exact ⟨r.text, rfl, (sound r inside).text⟩
  spans := by
    intro s member
    obtain ⟨before, r, after, own, rows, inside, rfl⟩ := mem_spansFrom member
    have within := (sound r (rows ▸ List.mem_append_right _ List.mem_cons_self)).spans own inside
    have segments : t.segments =
        before.map Row.segment ++ (r.text ++ "\n") :: after.map Row.segment := by
      rw [Stream.segments, rows, List.map_append, List.map_cons, Row.segment]
    have offset : 0 + rowsSize before = (String.join (before.map Row.segment)).utf8ByteSize := by
      rw [utf8ByteSize_join, rowsSize_eq_sum, Nat.zero_add]
    have text : t.text = String.join (before.map Row.segment) ++
        (r.text ++ ("\n" ++ String.join (after.map Row.segment))) := by
      rw [Stream.text, segments, String.join_append, String.join_cons, String.append_assoc]
    rw [offset]
    constructor
    · refine ⟨before.map Row.segment, r.text, after.map Row.segment, segments, ?_, ?_⟩
      · exact Nat.le_add_right _ _
      · exact Nat.add_le_add_left within.stop.le_size _
    · rw [text]
      exact within.inside _ _

/-- However a session came about, its stream is sound. -/
theorem History.sound_render (actions : List Action) (showHelp : Bool) :
    ((of actions).session.render showHelp).2.Sound :=
  sound_of_rows ((of actions).session.sound_stream (onLines_of actions) showHelp)

end HunkReview
