import HunkReview.Proofs.Stream.Sound

/-! Rows at their places in the whole text. As spans stay inside their rows, a byte of a row is set off
in the whole text exactly when one of the row's own spans covers it. -/
namespace HunkReview

structure PlacedRow where
  offset : Nat
  row : Row

def placedFrom (offset : Nat) (rows : List Row) : List PlacedRow :=
  (rowStarts offset rows).zipWith PlacedRow.mk rows

def Stream.placed (t : Stream) : List PlacedRow :=
  placedFrom 0 t.rows

def Stream.setsOff (t : Stream) (style : Style) (byte : Nat) : Bool :=
  t.spans.any fun s => s.style = style && s.start ≤ byte && byte < s.stop

def SpansInside (rows : List Row) : Prop :=
  ∀ r ∈ rows, ∀ s ∈ r.spans, s.stop ≤ r.text.utf8ByteSize

theorem placedFrom_cons (offset : Nat) (r : Row) (rows : List Row) :
    placedFrom offset (r :: rows) = ⟨offset, r⟩ :: placedFrom (offset + r.size) rows :=
  rfl

@[simp] theorem map_row_placedFrom (offset : Nat) (rows : List Row) :
    (placedFrom offset rows).map PlacedRow.row = rows := by
  induction rows generalizing offset with
  | nil => rfl
  | cons r rows ih => rw [placedFrom_cons, List.map_cons, ih]

/-- Rows begin where the rows before them end. -/
theorem mem_placedFrom_iff {p : PlacedRow} {offset : Nat} {rows : List Row} :
    p ∈ placedFrom offset rows ↔
      ∃ before after, rows = before ++ p.row :: after ∧ p.offset = offset + rowsSize before := by
  induction rows generalizing offset with
  | nil => simp [placedFrom, rowStarts]
  | cons r rows ih =>
    rw [placedFrom_cons, List.mem_cons, ih]
    constructor
    · rintro (rfl | ⟨before, after, rfl, place⟩)
      · exact ⟨[], rows, rfl, rfl⟩
      · exact ⟨r :: before, after, rfl, by rw [place, rowsSize, Nat.add_assoc]⟩
    · rintro ⟨before, after, split, place⟩
      cases before with
      | nil =>
        obtain ⟨rfl, rfl⟩ := List.cons.inj split
        exact .inl (by rw [← show p.offset = offset from place])
      | cons b before =>
        obtain ⟨rfl, rfl⟩ := List.cons.inj split
        exact .inr ⟨before, after, rfl, by rw [place, rowsSize, Nat.add_assoc]⟩

theorem size_row (r : Row) : r.size = r.text.utf8ByteSize + 1 := by
  rw [Row.size, Row.segment, String.utf8ByteSize_append]
  rfl

theorem rowsSize_append (before after : List Row) :
    rowsSize (before ++ after) = rowsSize before + rowsSize after := by
  induction before with
  | nil => simp [rowsSize]
  | cons r before ih => rw [List.cons_append, rowsSize, ih, rowsSize, Nat.add_assoc]

theorem spansFrom_append (offset : Nat) (before after : List Row) :
    spansFrom offset (before ++ after) =
      spansFrom offset before ++ spansFrom (offset + rowsSize before) after := by
  induction before generalizing offset with
  | nil => simp [spansFrom, rowsSize]
  | cons r before ih =>
    rw [List.cons_append, spansFrom, ih, spansFrom, rowsSize, List.append_assoc, Nat.add_assoc]

/-- Spans of rows lie between the places where the rows begin and end. -/
theorem spansFrom_inside {offset : Nat} {rows : List Row} (inside : SpansInside rows) {s : Span}
    (member : s ∈ spansFrom offset rows) : offset ≤ s.start ∧ s.stop ≤ offset + rowsSize rows := by
  obtain ⟨before, r, after, own, rfl, there, rfl⟩ := mem_spansFrom member
  have short := inside r (by simp) own there
  have size := size_row r
  simp only [rowsSize_append, rowsSize, Span.shift]
  omega

/-- A byte of a row is set off by a span of the row or by none. -/
theorem setsOff_iff {t : Stream} (inside : SpansInside t.rows) {p : PlacedRow} (member : p ∈ t.placed)
    (style : Style) {byte : Nat} (low : p.offset ≤ byte) (high : byte < p.offset + p.row.size) :
    t.setsOff style byte ↔
      ∃ s ∈ p.row.spans, s.style = style ∧ p.offset + s.start ≤ byte ∧ byte < p.offset + s.stop := by
  obtain ⟨before, after, rows, place⟩ := mem_placedFrom_iff.mp member
  rw [Nat.zero_add] at place
  have spans : t.spans = spansFrom 0 before ++
      (p.row.spans.map (Span.shift p.offset) ++ spansFrom (p.offset + p.row.size) after) := by
    rw [Stream.spans, rows, spansFrom_append, spansFrom, Nat.zero_add, place]
  have above : SpansInside before := fun r there => inside r (by simp [rows, there])
  have below : SpansInside after := fun r there => inside r (by simp [rows, there])
  simp only [Stream.setsOff, List.any_eq_true, Bool.and_eq_true, decide_eq_true_eq, spans,
    List.mem_append]
  constructor
  · rintro ⟨s, earlier | own | later, ⟨styled, start⟩, stop⟩
    · have bounds := spansFrom_inside above earlier
      omega
    · obtain ⟨s, there, rfl⟩ := List.mem_map.mp own
      exact ⟨s, there, styled, start, stop⟩
    · have bounds := spansFrom_inside below later
      omega
  · rintro ⟨s, there, styled, start, stop⟩
    exact ⟨s.shift p.offset, .inr (.inl (List.mem_map_of_mem there)), ⟨styled, start⟩, stop⟩

/-- Every span of the whole text belongs to a row at its place. -/
theorem exists_placed_of_mem_spans {t : Stream} {s : Span} (member : s ∈ t.spans) :
    ∃ p ∈ t.placed, ∃ own ∈ p.row.spans, s = own.shift p.offset := by
  obtain ⟨before, r, after, own, rows, there, rfl⟩ := mem_spansFrom member
  exact ⟨⟨0 + rowsSize before, r⟩, mem_placedFrom_iff.mpr ⟨before, after, rows, rfl⟩, own, there, rfl⟩

end HunkReview
