import HunkReview.Proofs.Stream.Runs
import HunkReview.Proofs.Stream.Sound

/-! Layout as painting. Laid out in rows, a text looks as if the spans had been painted over it one after
the other: each byte shows the style of the last span that contains it. -/
namespace HunkReview

def textsSize (texts : List String) : Nat :=
  (String.join texts).utf8ByteSize

@[simp] theorem textsSize_cons (text : String) (texts : List String) :
    textsSize (text :: texts) = text.utf8ByteSize + textsSize texts := by
  rw [textsSize, String.join_cons, String.utf8ByteSize_append, textsSize]

@[simp] theorem textsSize_nil : textsSize [] = 0 :=
  rfl

theorem textsSize_append (texts more : List String) :
    textsSize (texts ++ more) = textsSize texts + textsSize more := by
  simp only [textsSize, utf8ByteSize_join, List.map_append, List.sum_append]

/-! ### What is left of a span in a segment -/

namespace Span

theorem style_clip {s part : Span} {offset size : Nat} (left : s.clip offset size = some part) :
    part.style = s.style := by
  unfold clip at left
  dsimp only at left
  split at left
  · rw [← Option.some.inj left]
  · cases left

/-- A byte of a segment is in the part of a span exactly when it is in the span. -/
theorem contains_clip (s : Span) {offset size byte : Nat} (inside : byte < size) :
    ((s.clip offset size).any fun part => decide (part.Contains byte)) =
      decide (s.Contains (offset + byte)) := by
  rw [Bool.eq_iff_iff, decide_eq_true_eq]
  unfold clip
  dsimp only
  split
  · rw [Option.any_some, decide_eq_true_eq]
    dsimp only [Contains]
    omega
  · rw [Option.any_none, Bool.false_eq_true, false_iff]
    dsimp only [Contains]
    omega

theorem clip_eq_none {s : Span} {offset size : Nat} (apart : offset + size ≤ s.start ∨ s.stop ≤ offset) :
    s.clip offset size = none := by
  unfold clip
  exact if_neg (by omega)

end Span

/-- The parts of spans in a segment paint it as the spans do. -/
theorem paint_clip (spans : List Span) {offset size byte : Nat} (inside : byte < size) :
    paint (spans.filterMap (Span.clip offset size)) byte = paint spans (offset + byte) := by
  have last : spans.reverse.find? (fun s => decide (s.Contains (offset + byte))) =
      spans.reverse.find? fun s =>
        (s.clip offset size).any fun part => decide (part.Contains byte) := by
    congr 1
    funext s
    exact (s.contains_clip inside).symm
  rw [paint, paint, last, ← List.filterMap_reverse, List.find?_filterMap]
  cases found : spans.reverse.find? fun s =>
      (s.clip offset size).any fun part => decide (part.Contains byte) with
  | none => rfl
  | some s =>
    have held := List.find?_some found
    cases left : s.clip offset size with
    | none => simp [left] at held
    | some part => simp [left, Span.style_clip left]

/-! ### The parts of spans, row by row -/

theorem getElem?_segmentStarts (offset : Nat) (segments : List String) (k : Nat)
    (bound : k < segments.length) :
    (segmentStarts offset segments)[k]? = some (offset + textsSize (segments.take k)) := by
  induction segments generalizing offset k with
  | nil => cases bound
  | cons segment rest ih =>
    cases k with
    | zero => simp [segmentStarts]
    | succ k =>
      rw [List.length_cons, Nat.add_lt_add_iff_right] at bound
      rw [segmentStarts, List.getElem?_cons_succ, ih _ k bound, List.take_succ_cons, textsSize_cons,
        Nat.add_assoc]

theorem length_segmentStarts (offset : Nat) (segments : List String) :
    (segmentStarts offset segments).length = segments.length := by
  induction segments generalizing offset with
  | nil => rfl
  | cons segment rest ih => rw [segmentStarts, List.length_cons, ih, List.length_cons]

/-- The row found for an offset begins at or before it, unless it is the first. -/
theorem lastStartAt_spec {starts : List Nat} {offset : Nat} (later : 0 < lastStartAt starts offset) :
    ∃ start, starts[lastStartAt starts offset]? = some start ∧ start ≤ offset := by
  unfold lastStartAt at later ⊢
  have inside : (starts.takeWhile (· ≤ offset)).length - 1 < (starts.takeWhile (· ≤ offset)).length := by
    omega
  have here := List.getElem?_eq_getElem inside
  have low := List.mem_takeWhile_imp (List.getElem_mem inside)
  exact ⟨_, (List.prefix_iff_getElem?.mp (List.takeWhile_prefix _) _ inside), of_decide_eq_true low⟩

theorem lastStartAt_lt {starts : List Nat} (offset : Nat) (nonempty : 0 < starts.length) :
    lastStartAt starts offset < starts.length := by
  have := (List.takeWhile_prefix (p := fun start => decide (start ≤ offset)) (l := starts)).length_le
  unfold lastStartAt
  omega

def inRow (row : Nat) (parts : List RowPart) : List Span :=
  parts.filterMap fun p => if p.row = row then some p.part else none

theorem inRow_eq_nil {row : Nat} {parts : List RowPart} (other : ∀ p ∈ parts, p.row ≠ row) :
    inRow row parts = [] :=
  List.filterMap_eq_nil_iff.mpr fun p member => if_neg (other p member)

namespace Span

theorem row_le_of_mem_partsFrom {s : Span} {row offset : Nat} {segments : List String} {p : RowPart}
    (member : p ∈ s.partsFrom row offset segments) : row ≤ p.row := by
  induction segments generalizing row offset with
  | nil => cases member
  | cons segment rest ih =>
    unfold partsFrom at member
    split at member
    · cases member
    · dsimp only at member
      split at member
      · rcases List.mem_cons.mp member with rfl | below
        · exact Nat.le_refl row
        · have := ih below
          omega
      · have := ih member
        omega

/-- From a row on, the parts in each row are what is left of the span there. -/
theorem inRow_partsFrom (s : Span) (row offset : Nat) (before : List String) (segment : String)
    (after : List String) :
    inRow (row + before.length) (s.partsFrom row offset (before ++ segment :: after)) =
      (s.clip (offset + textsSize before) segment.utf8ByteSize).toList := by
  induction before generalizing row offset with
  | nil =>
    have below : ∀ p ∈ s.partsFrom (row + 1) (offset + segment.utf8ByteSize) after, p.row ≠ row := by
      intro p member
      have := row_le_of_mem_partsFrom member
      omega
    simp only [List.length_nil, Nat.add_zero, textsSize_nil, List.nil_append, partsFrom]
    split
    · next ended => rw [clip_eq_none (.inr ended)]; rfl
    · cases left : s.clip offset segment.utf8ByteSize with
      | none => exact inRow_eq_nil below
      | some part =>
        have first := inRow_eq_nil below
        simp only [inRow] at first
        simp [inRow, first]
  | cons first before ih =>
    have rows : row + (first :: before).length = row + 1 + before.length := by
      rw [List.length_cons]
      omega
    have offsets : offset + textsSize (first :: before) =
        offset + first.utf8ByteSize + textsSize before := by
      rw [textsSize_cons, Nat.add_assoc]
    simp only [List.cons_append, partsFrom, rows, offsets]
    split
    · next ended => rw [clip_eq_none (.inr (by omega))]; rfl
    · rw [← ih (row + 1) (offset + first.utf8ByteSize)]
      cases s.clip offset first.utf8ByteSize with
      | none => rfl
      | some part =>
        have apart : row ≠ row + 1 + before.length := by omega
        simp only [inRow, List.filterMap_cons, if_neg apart]

/-- Looking for a span's parts from the row in which it begins misses none of them. -/
theorem inRow_parts (s : Span) (before : List String) (segment : String) (after : List String) :
    inRow before.length
        (s.parts (before ++ segment :: after) (segmentStarts 0 (before ++ segment :: after))) =
      (s.clip (textsSize before) segment.utf8ByteSize).toList := by
  have lengths := length_segmentStarts 0 (before ++ segment :: after)
  have total : (before ++ segment :: after).length = before.length + 1 + after.length := by
    rw [List.length_append, List.length_cons]
    omega
  have bound := @lastStartAt_lt (segmentStarts 0 (before ++ segment :: after)) s.start (by omega)
  have spec := @lastStartAt_spec (segmentStarts 0 (before ++ segment :: after)) s.start
  unfold parts
  dsimp only
  generalize lastStartAt (segmentStarts 0 (before ++ segment :: after)) s.start = first at bound spec ⊢
  have start := getElem?_segmentStarts 0 (before ++ segment :: after) first (by omega)
  rw [Nat.zero_add] at start
  rw [List.getD_eq_getElem?_getD, start, Option.getD_some]
  rcases Nat.lt_or_ge before.length first with early | late
  · -- the segment ends before the row in which the span begins
    obtain ⟨place, found, low⟩ := spec (by omega)
    rw [start, Option.some.injEq] at found
    obtain ⟨d, rfl⟩ : ∃ d, first = before.length + (d + 1) := ⟨first - before.length - 1, by omega⟩
    rw [List.take_length_add_append, List.take_succ_cons, textsSize_append, textsSize_cons] at found
    rw [clip_eq_none (.inl (by omega))]
    refine inRow_eq_nil fun p member => ?_
    have := row_le_of_mem_partsFrom member
    omega
  · have rest : (before ++ segment :: after).drop first = before.drop first ++ segment :: after :=
      List.drop_append_of_le_length late
    have front : (before ++ segment :: after).take first = before.take first :=
      List.take_append_of_le_length late
    have rows : before.length = first + (before.drop first).length := by
      rw [List.length_drop]
      omega
    have offsets : textsSize before = textsSize (before.take first) + textsSize (before.drop first) := by
      rw [← textsSize_append, List.take_append_drop]
    have shown := s.inRow_partsFrom first (textsSize (before.take first)) (before.drop first) segment after
    rw [rest, front, rows, offsets]
    exact shown

end Span

/-- Each row is styled with what is left of the spans in its segment. -/
theorem getElem?_layout (before : List String) (segment : String) (after : List String)
    (spans : List Span) :
    (layout (before ++ segment :: after) spans)[before.length]? = some (styleRow (rowText segment)
      (spans.filterMap (Span.clip (textsSize before) segment.utf8ByteSize))) := by
  have parts : inRow before.length (spans.flatMap (Span.parts (before ++ segment :: after)
      (segmentStarts 0 (before ++ segment :: after)))) =
      spans.filterMap (Span.clip (textsSize before) segment.utf8ByteSize) := by
    induction spans with
    | nil => rfl
    | cons s spans ih =>
      have first := s.inRow_parts before segment after
      rw [inRow] at ih first ⊢
      rw [List.flatMap_cons, List.filterMap_append, ih, first, List.filterMap_cons]
      cases s.clip (textsSize before) segment.utf8ByteSize <;> rfl
  have here : (before ++ segment :: after)[before.length]? = some segment := by simp
  rw [layout, List.getElem?_mapIdx, here, Option.map_some, ← parts]
  rfl

theorem length_layout (segments : List String) (spans : List Span) :
    (layout segments spans).length = segments.length :=
  List.length_mapIdx

/-! ### Painting -/

/-- An offset between two characters of a text, at one of its ends, or past its end. -/
def IsCut (text : String) (offset : Nat) : Prop :=
  IsPlace text offset ∨ text.utf8ByteSize < offset

instance (text : String) (offset : Nat) : Decidable (IsCut text offset) :=
  inferInstanceAs (Decidable (_ ∨ _))

/-- The style is that of the last span that contains the byte, and there is none when no span does. -/
def IsPaint (spans : List Span) (byte : Nat) : Option Style → Prop
  | some style => ∃ earlier s later, spans = earlier ++ s :: later ∧ s.Contains byte ∧
      s.style = style ∧ ∀ other ∈ later, ¬other.Contains byte
  | none => ∀ s ∈ spans, ¬s.Contains byte

/-- Each byte of the row, which begins at an offset of the whole text, is in exactly one run, and has the
style that painting the spans one after the other gives it. -/
def StyledRow.IsPainted (r : StyledRow) (offset : Nat) (spans : List Span) : Prop :=
  ∀ byte < r.text.utf8ByteSize, ∃ run ∈ r.runs, run.Contains byte ∧
    IsPaint spans (offset + byte) run.style ∧ ∀ other ∈ r.runs, other.Contains byte → other = run

theorem isPaint_paint (spans : List Span) (byte : Nat) : IsPaint spans byte (paint spans byte) := by
  unfold paint
  cases found : spans.reverse.find? fun s => decide (s.Contains byte) with
  | none =>
    intro s member
    have missed := List.find?_eq_none.mp found s (List.mem_reverse.mpr member)
    simpa using missed
  | some s =>
    obtain ⟨contains, later, earlier, split, missed⟩ := List.find?_eq_some_iff_append.mp found
    have order : spans = earlier.reverse ++ s :: later.reverse := by
      rw [← List.reverse_reverse spans, split]
      simp
    refine ⟨earlier.reverse, s, later.reverse, order, of_decide_eq_true contains, rfl, ?_⟩
    intro other member
    simpa using missed other (List.mem_reverse.mp member)

/-- Cut to a row, a span that is cut between characters still is. -/
theorem Span.fits_clip {s part : Span} {before text feeds after : String}
    (start : IsCut (before ++ (text ++ (feeds ++ after))) s.start)
    (stop : IsCut (before ++ (text ++ (feeds ++ after))) s.stop)
    (left : s.clip before.utf8ByteSize (text ++ feeds).utf8ByteSize = some part) :
    part.Fits text := by
  have local_ {offset : Nat} (cut : IsCut (before ++ (text ++ (feeds ++ after))) offset) :
      IsPlace text (min (offset - before.utf8ByteSize) text.utf8ByteSize) := by
    rcases cut with place | past
    · exact place.within
    · rw [String.utf8ByteSize_append, String.utf8ByteSize_append] at past
      rw [Nat.min_eq_right (by omega)]
      exact isPlace_size text
  rw [String.utf8ByteSize_append] at left
  unfold clip at left
  dsimp only at left
  split at left
  · obtain rfl := Option.some.inj left
    constructor
    · have same : min (max s.start before.utf8ByteSize - before.utf8ByteSize) text.utf8ByteSize =
          min (s.start - before.utf8ByteSize) text.utf8ByteSize := by omega
      exact same ▸ local_ start
    · have same : min (min s.stop (before.utf8ByteSize + (text.utf8ByteSize + feeds.utf8ByteSize)) -
          before.utf8ByteSize) text.utf8ByteSize =
          min (s.stop - before.utf8ByteSize) text.utf8ByteSize := by omega
      exact same ▸ local_ stop
  · cases left

/-- What a segment has after the text of its row are line feeds. -/
theorem rowText_feeds (segment : String) :
    ∃ feeds, segment = rowText segment ++ feeds ∧ ∀ c ∈ feeds.toList, c = '\n' := by
  obtain ⟨dropped, all, held⟩ := Text.exists_append_dropEndWhile (· == '\n') segment.toList
  refine ⟨String.ofList dropped, String.toList_injective ?_, by simpa using held⟩
  rw [String.toList_append, rowText, String.toList_ofList, String.toList_ofList]
  exact all

theorem exists_append_rowText (segment : String) : ∃ feeds, segment = rowText segment ++ feeds :=
  let ⟨feeds, split, _⟩ := rowText_feeds segment
  ⟨feeds, split⟩

/-- Layout gives each segment its row, in order, and paints each byte of it. -/
theorem layout_isPainted (segments : List String) (spans : List Span)
    (cuts : ∀ s ∈ spans, IsCut (String.join segments) s.start ∧ IsCut (String.join segments) s.stop) :
    (layout segments spans).length = segments.length ∧
      ∀ before segment after, segments = before ++ segment :: after →
        ∃ r, (layout segments spans)[before.length]? = some r ∧ r.text = rowText segment ∧
          r.IsPainted (textsSize before) spans := by
  refine ⟨length_layout segments spans, ?_⟩
  rintro before segment after rfl
  refine ⟨_, getElem?_layout before segment after spans, rfl, ?_⟩
  intro byte inside
  change byte < (rowText segment).utf8ByteSize at inside
  obtain ⟨feeds, split⟩ := exists_append_rowText segment
  have whole : String.join (before ++ segment :: after) =
      String.join before ++ (rowText segment ++ (feeds ++ String.join after)) := by
    rw [String.join_append, String.join_cons]
    conv_lhs => rw [split]
    rw [String.append_assoc]
  have fits : ∀ part ∈ spans.filterMap (Span.clip (textsSize before) segment.utf8ByteSize),
      part.Fits (rowText segment) := by
    intro part member
    obtain ⟨s, inSpans, left⟩ := List.mem_filterMap.mp member
    obtain ⟨start, stop⟩ := cuts s inSpans
    rw [whole] at start stop
    rw [split] at left
    exact Span.fits_clip start stop left
  have size : byte < segment.utf8ByteSize := by
    have := congrArg String.utf8ByteSize split
    rw [String.utf8ByteSize_append] at this
    omega
  obtain ⟨run, member, contains, style, only⟩ := styleRow_runs fits inside
  rw [paint_clip spans size] at style
  exact ⟨run, member, contains, style ▸ isPaint_paint spans _, only⟩

def unevenSegments : List String :=
  ["añ🦀\n", "", "\n", "xyz\n"]

def crossingSpans : List Span :=
  [⟨0, 40, .context⟩, ⟨3, 10, .added⟩, ⟨1, 3, .removed⟩, ⟨9, 9, .border⟩, ⟨11, 9, .comment⟩]

theorem layout_isPainted_crossing :
    (∀ s ∈ crossingSpans, IsCut (String.join unevenSegments) s.start ∧
      IsCut (String.join unevenSegments) s.stop) ∧
    ∃ r, (layout unevenSegments crossingSpans)[3]? = some r ∧ r.text = "xyz" ∧
      r.IsPainted 9 crossingSpans := by
  have cuts : ∀ s ∈ crossingSpans, IsCut (String.join unevenSegments) s.start ∧
      IsCut (String.join unevenSegments) s.stop := by decide
  obtain ⟨r, row, text, painted⟩ :=
    (layout_isPainted unevenSegments crossingSpans cuts).2 ["añ🦀\n", "", "\n"] "xyz\n" [] rfl
  exact ⟨cuts, r, row, text.trans (by decide), painted⟩

end HunkReview
