import HunkReview.Proofs.Stream.Span
import HunkReview.Stream.Layout

/-! The runs of one row. They lie between neighbouring bounds, so each byte of the row is in exactly one
of them; and when no span begins or ends inside a character, a run is inside a span as soon as one of
its bytes is. -/
namespace HunkReview

def Span.Contains (s : Span) (byte : Nat) : Prop :=
  s.start ≤ byte ∧ byte < s.stop

instance (s : Span) (byte : Nat) : Decidable (s.Contains byte) :=
  inferInstanceAs (Decidable (_ ∧ _))

def Run.Contains (r : Run) (byte : Nat) : Prop :=
  r.start ≤ byte ∧ byte < r.stop

/-! ### Offsets in order, once each -/

theorem eraseReps_loop (a : Nat) (rest front : List Nat) :
    List.eraseRepsBy.loop (· == ·) a rest front =
      front.reverse ++ List.eraseRepsBy.loop (· == ·) a rest [] := by
  induction rest generalizing a front with
  | nil => simp [List.eraseRepsBy.loop]
  | cons b rest ih =>
    simp only [List.eraseRepsBy.loop]
    split
    · exact ih a front
    · rw [ih b (a :: front), ih b [a]]
      simp

theorem eraseReps_cons_cons (a b : Nat) (rest : List Nat) :
    (a :: b :: rest).eraseReps =
      if a = b then (b :: rest).eraseReps else a :: (b :: rest).eraseReps := by
  simp only [List.eraseReps, List.eraseRepsBy, List.eraseRepsBy.loop]
  by_cases same : a = b
  · simp [same]
  · have differ : (a == b) = false := by simpa using same
    rw [differ, if_neg same]
    exact eraseReps_loop b rest [a]

theorem mem_eraseReps {x : Nat} {offsets : List Nat} : x ∈ offsets.eraseReps ↔ x ∈ offsets := by
  induction offsets with
  | nil => rfl
  | cons a rest ih =>
    cases rest with
    | nil => rfl
    | cons b rest =>
      rw [eraseReps_cons_cons]
      split
      · next same => simp [ih, same]
      · rw [List.mem_cons, ih, ← List.mem_cons]

theorem pairwise_eraseReps {offsets : List Nat} (sorted : offsets.Pairwise (· ≤ ·)) :
    offsets.eraseReps.Pairwise (· < ·) := by
  induction offsets with
  | nil => exact .nil
  | cons a rest ih =>
    obtain ⟨least, sortedRest⟩ := List.pairwise_cons.mp sorted
    cases rest with
    | nil => exact List.pairwise_singleton _ _
    | cons b rest =>
      rw [eraseReps_cons_cons]
      split
      · exact ih sortedRest
      · next differ =>
        refine List.pairwise_cons.mpr ⟨fun x member => ?_, ih sortedRest⟩
        -- `a` is below `b`, and `b` is the least of what follows
        have first := least b List.mem_cons_self
        rcases List.mem_cons.mp (mem_eraseReps.mp member) with rfl | later
        · omega
        · have := (List.pairwise_cons.mp sortedRest).1 x later
          omega

/-! ### Bounds -/

theorem pairwise_runBounds (text : String) (spans : List Span) :
    (runBounds text spans).Pairwise (· < ·) := by
  refine pairwise_eraseReps ?_
  refine (List.pairwise_mergeSort ?_ ?_ _).imp of_decide_eq_true
  · intro a b c below above
    simp only [decide_eq_true_eq] at below above ⊢
    omega
  · intro a b
    simp only [Bool.or_eq_true, decide_eq_true_eq]
    omega

theorem mem_runBounds {text : String} {spans : List Span} {offset : Nat} :
    offset ∈ runBounds text spans ↔
      IsPlace text offset ∧ (offset = 0 ∨ offset = text.utf8ByteSize ∨
        ∃ s ∈ spans, offset = min s.start text.utf8ByteSize ∨ offset = min s.stop text.utf8ByteSize) := by
  simp only [runBounds, mem_eraseReps, List.mem_mergeSort, List.mem_filter, List.mem_cons,
    List.mem_flatMap, List.not_mem_nil, or_false, String.Pos.Raw.isValid_eq_true_iff]
  exact and_comm

theorem zero_mem_runBounds (text : String) (spans : List Span) : 0 ∈ runBounds text spans :=
  mem_runBounds.mpr ⟨isPlace_zero text, .inl rfl⟩

theorem size_mem_runBounds (text : String) (spans : List Span) :
    text.utf8ByteSize ∈ runBounds text spans :=
  mem_runBounds.mpr ⟨isPlace_size text, .inr (.inl rfl)⟩

/-! ### Neighbouring bounds -/

def Neighbours (bounds : List Nat) (x y : Nat) : Prop :=
  ∃ before after, bounds = before ++ x :: y :: after

theorem Neighbours.cons {bounds : List Nat} {x y : Nat} (h : Neighbours bounds x y) (a : Nat) :
    Neighbours (a :: bounds) x y := by
  obtain ⟨before, after, rfl⟩ := h
  exact ⟨a :: before, after, rfl⟩

/-- No bound lies between neighbours. -/
theorem Neighbours.apart {bounds : List Nat} {x y : Nat} (h : Neighbours bounds x y)
    (sorted : bounds.Pairwise (· < ·)) {offset : Nat} (member : offset ∈ bounds) :
    offset ≤ x ∨ y ≤ offset := by
  obtain ⟨before, after, rfl⟩ := h
  obtain ⟨-, inner, across⟩ := List.pairwise_append.mp sorted
  rcases List.mem_append.mp member with early | late
  · have := across offset early x List.mem_cons_self
    omega
  · obtain ⟨-, tail⟩ := List.pairwise_cons.mp inner
    rcases List.mem_cons.mp late with rfl | later
    · omega
    · rcases List.mem_cons.mp later with rfl | last
      · omega
      · have := (List.pairwise_cons.mp tail).1 offset last
        omega

/-- A byte between two of the bounds is between two that are neighbours. -/
theorem exists_neighbours {bounds : List Nat} {low high byte : Nat} (sorted : bounds.Pairwise (· < ·))
    (lower : low ∈ bounds) (upper : high ∈ bounds) (above : low ≤ byte) (below : byte < high) :
    ∃ x y, Neighbours bounds x y ∧ x ≤ byte ∧ byte < y := by
  induction bounds generalizing low with
  | nil => cases lower
  | cons a rest ih =>
    obtain ⟨least, sortedRest⟩ := List.pairwise_cons.mp sorted
    have later : high ∈ rest := by
      rcases List.mem_cons.mp upper with rfl | later
      · rcases List.mem_cons.mp lower with rfl | inside
        · omega
        · have := least low inside
          omega
      · exact later
    cases rest with
    | nil => cases later
    | cons b rest =>
      by_cases first : byte < b
      · refine ⟨a, b, ⟨[], rest, rfl⟩, ?_, first⟩
        rcases List.mem_cons.mp lower with rfl | inside
        · exact above
        · have := least low inside
          omega
      · obtain ⟨x, y, neighbours, start, stop⟩ :=
          ih sortedRest List.mem_cons_self later (by omega)
        exact ⟨x, y, neighbours.cons a, start, stop⟩

/-! ### Runs -/

theorem mem_runsBetween {spans : List Span} {bounds : List Nat} {r : Run} :
    r ∈ runsBetween spans bounds ↔ ∃ x y, Neighbours bounds x y ∧
      r = ⟨x, y, (spans.reverse.find? (·.covers x y)).map (·.style)⟩ := by
  fun_induction runsBetween spans bounds with
  | case1 start stop rest ih =>
    rw [List.mem_cons, ih]
    constructor
    · rintro (rfl | ⟨x, y, neighbours, rfl⟩)
      · exact ⟨start, stop, ⟨[], rest, rfl⟩, rfl⟩
      · exact ⟨x, y, neighbours.cons start, rfl⟩
    · rintro ⟨x, y, ⟨before, after, split⟩, rfl⟩
      cases before with
      | nil =>
        obtain ⟨rfl, rfl, rfl⟩ : start = x ∧ stop = y ∧ rest = after := by simpa using split
        exact .inl rfl
      | cons b before => exact .inr ⟨x, y, ⟨before, after, (List.cons.inj split).2⟩, rfl⟩
  | case2 bounds short =>
    simp only [List.not_mem_nil, false_iff]
    rintro ⟨x, y, ⟨before, after, rfl⟩, -⟩
    cases before with
    | nil => exact short x y after rfl
    | cons b before =>
      cases before with
      | nil => exact short b x (y :: after) rfl
      | cons c before => exact short b c (before ++ x :: y :: after) rfl

/-- The style of the last span that contains the byte. -/
def paint (spans : List Span) (byte : Nat) : Option Style :=
  (spans.reverse.find? fun s => decide (s.Contains byte)).map (·.style)

/-- Cut at the end of the text, the span begins and ends at places of the text. -/
structure Span.Fits (s : Span) (text : String) : Prop where
  start : IsPlace text (min s.start text.utf8ByteSize)
  stop : IsPlace text (min s.stop text.utf8ByteSize)

/-- As its ends are bounds, a span has all of a run or nothing of it. -/
theorem Span.Fits.covers_iff {s : Span} {text : String} {spans : List Span} (fits : s.Fits text)
    (member : s ∈ spans) {x y byte : Nat} (run : Neighbours (runBounds text spans) x y)
    (above : x ≤ byte) (below : byte < y) (inside : byte < text.utf8ByteSize) :
    s.covers x y ↔ s.Contains byte := by
  have sorted := pairwise_runBounds text spans
  have start := run.apart sorted
    (mem_runBounds.mpr ⟨fits.start, .inr (.inr ⟨s, member, .inl rfl⟩)⟩)
  have stop := run.apart sorted
    (mem_runBounds.mpr ⟨fits.stop, .inr (.inr ⟨s, member, .inr rfl⟩)⟩)
  simp only [covers, Contains, Bool.and_eq_true, decide_eq_true_eq]
  omega

/-- Each byte of a row is in one run, whose style is that of the last span with the byte. -/
theorem styleRow_runs {text : String} {spans : List Span} (fits : ∀ s ∈ spans, s.Fits text)
    {byte : Nat} (inside : byte < text.utf8ByteSize) :
    ∃ r ∈ (styleRow text spans).runs, r.Contains byte ∧ r.style = paint spans byte ∧
      ∀ other ∈ (styleRow text spans).runs, other.Contains byte → other = r := by
  have sorted := pairwise_runBounds text spans
  obtain ⟨x, y, run, above, below⟩ := exists_neighbours sorted (zero_mem_runBounds text spans)
    (size_mem_runBounds text spans) (Nat.zero_le byte) inside
  refine ⟨_, mem_runsBetween.mpr ⟨x, y, run, rfl⟩, ⟨above, below⟩, ?_, ?_⟩
  · have same : ∀ s ∈ spans.reverse, s.covers x y = decide (s.Contains byte) := by
      intro s member
      have member := List.mem_reverse.mp member
      rw [Bool.eq_iff_iff, decide_eq_true_eq]
      exact (fits s member).covers_iff member run above below inside
    rw [paint, ← List.head?_filter, ← List.head?_filter, List.filter_congr same]
  · intro other member contains
    obtain ⟨x', y', run', rfl⟩ := mem_runsBetween.mp member
    obtain ⟨above', below'⟩ : x' ≤ byte ∧ byte < y' := contains
    -- the ends of either run are bounds, so none of them is inside the other
    have ends {x y : Nat} (h : Neighbours (runBounds text spans) x y) :
        x ∈ runBounds text spans ∧ y ∈ runBounds text spans := by
      obtain ⟨before, after, split⟩ := h
      simp [split]
    have start := run.apart sorted (ends run').1
    have stop := run.apart sorted (ends run').2
    have start' := run'.apart sorted (ends run).1
    have stop' := run'.apart sorted (ends run).2
    obtain rfl : x' = x := by omega
    obtain rfl : y' = y := by omega
    rfl

end HunkReview
