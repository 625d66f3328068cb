import HunkReview.Proofs.Text.OneLine
import HunkReview.Stream.Row

/-! Spans and the texts they are spans of. An offset is a place in a text when it stands between two
of its characters or at one of its ends; a span in a text has some of it between two places. -/
namespace HunkReview

def IsPlace (text : String) (offset : Nat) : Prop :=
  (⟨offset⟩ : String.Pos.Raw).IsValid text

instance (text : String) (offset : Nat) : Decidable (IsPlace text offset) :=
  decidable_of_iff _ String.Pos.Raw.isValid_eq_true_iff

theorem isPlace_iff {text : String} {offset : Nat} :
    IsPlace text offset ↔ ∃ before after, text = before ++ after ∧ offset = before.utf8ByteSize := by
  rw [IsPlace, String.Pos.Raw.isValid_iff_exists_append]
  simp only [String.Pos.Raw.ext_iff, String.byteIdx_rawEndPos]

theorem IsPlace.le_size {text : String} {offset : Nat} (place : IsPlace text offset) :
    offset ≤ text.utf8ByteSize :=
  place.le_utf8ByteSize

theorem isPlace_zero (text : String) : IsPlace text 0 :=
  isPlace_iff.mpr ⟨"", text, (String.empty_append).symm, rfl⟩

theorem isPlace_size (text : String) : IsPlace text text.utf8ByteSize :=
  isPlace_iff.mpr ⟨text, "", (String.append_empty).symm, rfl⟩

/-- A place in a text is a place in any longer text, as far on as the text is. -/
theorem IsPlace.inside {text : String} {offset : Nat} (place : IsPlace text offset)
    (before after : String) :
    IsPlace (before ++ (text ++ after)) (before.utf8ByteSize + offset) := by
  obtain ⟨left, right, rfl, rfl⟩ := isPlace_iff.mp place
  refine isPlace_iff.mpr ⟨before ++ left, right ++ after, ?_, ?_⟩
  · simp only [String.append_assoc]
  · rw [String.utf8ByteSize_append]

/-- Where two texts that are put together are cut elsewhere, one cut is in the first text or the other. -/
theorem append_cases {a b c d : String} (same : a ++ b = c ++ d) :
    (∃ m, c = a ++ m ∧ b = m ++ d) ∨ ∃ m, a = c ++ m ∧ d = m ++ b := by
  have lists : a.toList ++ b.toList = c.toList ++ d.toList := by
    rw [← String.toList_append, same, String.toList_append]
  rcases List.append_eq_append_iff.mp lists with ⟨m, left, right⟩ | ⟨m, left, right⟩
  · refine .inl ⟨String.ofList m, ?_, ?_⟩ <;> apply String.toList_injective <;> simp [left, right]
  · refine .inr ⟨String.ofList m, ?_, ?_⟩ <;> apply String.toList_injective <;> simp [left, right]

/-- A place in a longer text is, as far as a text in it reaches, a place in that text. -/
theorem IsPlace.within {before text after : String} {offset : Nat}
    (place : IsPlace (before ++ (text ++ after)) offset) :
    IsPlace text (min (offset - before.utf8ByteSize) text.utf8ByteSize) := by
  obtain ⟨left, right, split, rfl⟩ := isPlace_iff.mp place
  rcases append_cases split with ⟨m, rfl, rest⟩ | ⟨m, rfl, -⟩
  · rw [String.utf8ByteSize_append, Nat.add_sub_cancel_left]
    rcases append_cases rest with ⟨beyond, rfl, -⟩ | ⟨n, rfl, -⟩
    · rw [String.utf8ByteSize_append, Nat.min_eq_right (Nat.le_add_right _ _)]
      exact isPlace_size text
    · rw [String.utf8ByteSize_append, Nat.min_eq_left (Nat.le_add_right _ _)]
      exact isPlace_iff.mpr ⟨m, n, rfl, rfl⟩
  · rw [String.utf8ByteSize_append, Nat.sub_eq_zero_of_le (Nat.le_add_right _ _), Nat.zero_min]
    exact isPlace_zero text

namespace Span

structure IsIn (s : Span) (text : String) : Prop where
  nonempty : s.start < s.stop
  start : IsPlace text s.start
  stop : IsPlace text s.stop

theorem IsIn.inside {s : Span} {text : String} (within : s.IsIn text) (before after : String) :
    (s.shift before.utf8ByteSize).IsIn (before ++ (text ++ after)) where
  nonempty := Nat.add_lt_add_left within.nonempty _
  start := within.start.inside before after
  stop := within.stop.inside before after

/-- The span of a part of a text. -/
theorem isIn_part (style : Style) (before after : String) {part : String} (nonempty : part ≠ "") :
    IsIn ⟨before.utf8ByteSize, before.utf8ByteSize + part.utf8ByteSize, style⟩
      (before ++ (part ++ after)) where
  nonempty := by
    have size : part.utf8ByteSize ≠ 0 := mt String.utf8ByteSize_eq_zero_iff.mp nonempty
    exact Nat.lt_add_of_pos_right (Nat.pos_of_ne_zero size)
  start := (isPlace_zero part).inside before after
  stop := (isPlace_size part).inside before after

end Span

/-- A row whose text fits on a line and whose spans are spans of its text. -/
structure Row.Sound (r : Row) : Prop where
  text : Text.OneLine r.text
  spans : ∀ s ∈ r.spans, s.IsIn r.text

theorem Row.sound_styled (tag : Tag) {text : String} (fits : Text.OneLine text) (style : Style) :
    (styled tag text style).Sound where
  text := fits
  spans := by
    intro s member
    unfold styled at member
    split at member
    · cases member
    · next size =>
      rw [List.mem_singleton.mp member]
      exact ⟨Nat.pos_of_ne_zero size, isPlace_zero text, isPlace_size text⟩

theorem Row.sound_blank (tag : Tag) : (⟨tag, "", []⟩ : Row).Sound where
  text := (by decide : Text.OneLine "")
  spans _ member := nomatch member

/-- More spans of its text leave a row sound. -/
theorem Row.Sound.setOff {r : Row} (sound : r.Sound) {spans : List Span}
    (inside : ∀ s ∈ spans, s.IsIn r.text) : ({ r with spans := r.spans ++ spans } : Row).Sound where
  text := sound.text
  spans s member := (List.mem_append.mp member).elim (sound.spans s) (inside s)

end HunkReview
