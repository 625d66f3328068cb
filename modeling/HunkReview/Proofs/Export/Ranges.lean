import HunkReview.Proofs.Export.Seen

/-! Ranges against numbers. The lines of a side are numbered on from the hunk's start, up to the largest
line number. So a hunk that counts its lines right has on each side the range from the first number
that is shown to the last, and the exported document has just this range. -/
namespace HunkReview

/-! ### The numbers of a side -/

namespace Hunk

def rangeOn (side : Side) (h : Hunk) : LineNo × LineNo :=
  match side with
  | .old => h.oldRange
  | .new => h.newRange

theorem rangeOn_eq (side : Side) (h : Hunk) :
    h.rangeOn side = (h.startOn side, (h.startOn side).plus ((h.countOn side).val - 1)) := by
  cases side <;> rfl

def numberedOn (side : Side) (h : Hunk) : List NumberedLine :=
  h.numbered.filter (·.kind.isOn side)

end Hunk

def countFrom (start : LineNo) (size : Nat) : List LineNo :=
  (List.range size).map start.plus

theorem countFrom_succ (start : LineNo) (size : Nat) :
    countFrom start (size + 1) = start :: countFrom start.next size := by
  simp [countFrom, List.range_succ_eq_map, Function.comp_def]

theorem map_lineOn_numberFrom (side : Side) (starts : Side → LineNo) (body : List DiffLine) :
    ((numberFrom (starts .old) (starts .new) body).filter (·.kind.isOn side)).map (·.lineOn side) =
      (countFrom (starts side) (sizeOn side body)).map some := by
  induction body generalizing starts with
  | nil => rfl
  | cons l body ih =>
    obtain ⟨kind, content⟩ := l
    -- a line moves the counters of the sides that it is on
    have below := ih fun side => if kind.isOn side then (starts side).next else starts side
    cases kind <;> cases side <;>
      simpa [numberFrom, NumberedLine.lineOn, sizeOn_cons, LineKind.isOn, countFrom_succ] using below

namespace Hunk

theorem map_lineOn_numberedOn (side : Side) (h : Hunk) :
    (h.numberedOn side).map (·.lineOn side) =
      (countFrom (h.startOn side) (sizeOn side h.lines)).map some :=
  map_lineOn_numberFrom side h.startOn h.lines

structure Reaches (h : Hunk) (side : Side) (first last : NumberedLine) (range : LineNo × LineNo) :
    Prop where
  starts : (h.numberedOn side).head? = some first
  ends : (h.numberedOn side).getLast? = some last
  low : first.lineOn side = some range.1
  high : last.lineOn side = some range.2

/-- A hunk that counts its lines on a side right reaches over its range. -/
theorem exists_reaches {h : Hunk} {side : Side} (given : 1 ≤ (h.countOn side).val)
    (counted : sizeOn side h.lines = (h.countOn side).val) :
    ∃ first last, h.Reaches side first last (h.rangeOn side) := by
  have numbers := h.map_lineOn_numberedOn side
  obtain ⟨size, count⟩ := Nat.exists_eq_add_of_le' given
  rw [counted, count] at numbers
  have heads := congrArg List.head? numbers
  have lasts := congrArg List.getLast? numbers
  obtain ⟨first, starts, low⟩ : ∃ first, (h.numberedOn side).head? = some first ∧
      first.lineOn side = some (h.startOn side) := by
    simpa [countFrom, List.head?_range] using heads
  obtain ⟨last, ends, high⟩ : ∃ last, (h.numberedOn side).getLast? = some last ∧
      last.lineOn side = some ((h.startOn side).plus size) := by
    simpa [countFrom, List.getLast?_range] using lasts
  refine ⟨first, last, starts, ends, ?_, ?_⟩
  · rw [low, rangeOn_eq]
  · rw [high, rangeOn_eq, count, Nat.add_sub_cancel]

theorem Reaches.mem {h : Hunk} {side : Side} {first last : NumberedLine} {range : LineNo × LineNo}
    (reaches : h.Reaches side first last range) : first ∈ h.numbered ∧ last ∈ h.numbered :=
  ⟨List.mem_of_mem_filter (List.mem_of_mem_head? reaches.starts),
    List.mem_of_mem_filter (List.mem_of_mem_getLast? reaches.ends)⟩

end Hunk

/-! ### What is exported and what is shown -/

def Side.rangeField : Side → String
  | .old => "old_lines"
  | .new => "new_lines"

def PrintedLine.numberOn (side : Side) (p : PrintedLine) : Option Nat :=
  match side with
  | .old => p.old
  | .new => p.new

theorem NumberedLine.numberOn_printed (side : Side) (l : NumberedLine) :
    l.printed.numberOn side = (l.lineOn side).map (·.val) := by
  cases side <;> rfl

namespace Session

/-- The document's text has the hunk under its file, with the range on the side. -/
def ExportsRange (s : Session) (now : Instant) (h : ReviewHunk) (side : Side)
    (range : LineNo × LineNo) : Prop :=
  ∃ entry, s.Exports now h entry ∧
    entry.field? side.rangeField = some (.array [.number range.1.val, .number range.2.val])

/-- The line of the hunk has a row, and its rows show the number on the side. -/
structure ShowsNumber (s : Session) (showHelp : Bool) (h : ReviewHunk) (l : NumberedLine)
    (side : Side) (n : LineNo) : Prop where
  there : ∃ d ∈ (s.render showHelp).2.rows, d.tag = .diffLine h.id l
  shown : ∀ d ∈ (s.render showHelp).2.rows, d.tag = .diffLine h.id l →
    ∃ p, d.printedLine? = some p ∧ p.numberOn side = some n.val

theorem exportsRange_of_mem {s : Session} {h : ReviewHunk} (inside : h ∈ s.hunks) (now : Instant)
    (side : Side) : s.ExportsRange now h side (h.rangeOn side) := by
  refine ⟨_, exports_of_mem inside now, ?_⟩
  cases side <;> rfl

theorem showsNumber_of_mem {s : Session} {h : ReviewHunk} (inside : h ∈ s.hunks) (showHelp : Bool)
    {l : NumberedLine} (there : l ∈ h.numbered) {side : Side} {n : LineNo}
    (number : l.lineOn side = some n) : s.ShowsNumber showHelp h l side n := by
  have again : (s.render showHelp).2 = (s.render showHelp).1.stream showHelp :=
    (s.stream_render showHelp showHelp).symm
  constructor
  · obtain ⟨d, row, tag⟩ := exists_diffLine inside there showHelp
    exact ⟨d, row, tag⟩
  · intro d row tag
    rw [again] at row
    refine ⟨l.printed, printedLine?_of_text ((origin_of_mem_stream row).text_line tag), ?_⟩
    simp [NumberedLine.numberOn_printed, number]

end Session

/-- A line of the hunk as it is in the diff, and its numbers: on a side that it is on, the start and the
lines of the side before it, up to the largest line number. -/
structure NumberedLine.Counts (n : NumberedLine) (h : Hunk) (i : Nat) (l : DiffLine) : Prop where
  kind : n.kind = l.kind
  content : n.content = l.content
  number : ∀ side, (n.lineOn side).map (·.val) =
    if l.kind.isOn side then
      some (min (2 ^ 32 - 1) ((h.startOn side).val + sizeOn side (h.lines.take i)))
    else none

theorem Hunk.exists_counts {h : Hunk} {i : Nat} {l : DiffLine} (there : h.lines[i]? = some l) :
    ∃ n, h.numbered[i]? = some n ∧ n.Counts h i l := by
  obtain ⟨bound, rfl⟩ := List.getElem?_eq_some_iff.mp there
  have inside : i < h.numbered.length := h.length_numbered ▸ bound
  obtain ⟨kind, numbers⟩ := h.numbered_getElem inside bound
  refine ⟨h.numbered[i], List.getElem?_eq_getElem inside, kind, ?_, fun side => ?_⟩
  · have lines := map_numberFrom h.oldStart h.newStart h.lines
    have same := List.getElem_of_eq lines.symm bound
    simp [same, numbered]
  · by_cases on : h.lines[i].kind.isOn side
    · simp [numbers, numberOn, on, LineNo.plus, Nat.min_comm]
    · simp [numbers, numberOn, on]

/-- Each line of a hunk has on its sides the number that the lines before it give it. Where the hunk
counts the lines of a side right, they go from the first number of its range to the last, and that is
what is exported and what is shown. -/
theorem Hunk.numbers_meet_range (h : Hunk) :
    h.numbered.length = h.lines.length ∧
    (∀ (i : Nat) l, h.lines[i]? = some l → ∃ n, h.numbered[i]? = some n ∧ n.Counts h i l) ∧
    ∀ side, 1 ≤ (h.countOn side).val → sizeOn side h.lines = (h.countOn side).val →
      ∃ first last, h.Reaches side first last (h.rangeOn side) ∧
        ∀ (s : Session) (r : ReviewHunk), r ∈ s.hunks → r.toHunk = h → ∀ showHelp now,
          s.ExportsRange now r side (h.rangeOn side) ∧
          s.ShowsNumber showHelp r first side (h.rangeOn side).1 ∧
          s.ShowsNumber showHelp r last side (h.rangeOn side).2 := by
  refine ⟨h.length_numbered, fun i l => exists_counts, fun side given counted => ?_⟩
  obtain ⟨first, last, reaches⟩ := exists_reaches given counted
  refine ⟨first, last, reaches, ?_⟩
  rintro s r inside rfl showHelp now
  exact ⟨Session.exportsRange_of_mem inside now side,
    Session.showsNumber_of_mem inside showHelp reaches.mem.1 reaches.low,
    Session.showsNumber_of_mem inside showHelp reaches.mem.2 reaches.high⟩

def lastNumbers : Session :=
  .applyDiff {}
    (parseDiff "diff --git a/f b/f\n@@ -4294967294,3 +4294967295,2 @@\n-a\n-b\n c\n+d\n")

theorem Hunk.numbers_meet_range_lastNumbers :
    ∃ r ∈ lastNumbers.hunks, 1 ≤ (r.countOn .old).val ∧ sizeOn .old r.lines = (r.countOn .old).val ∧
      ∃ first last, r.Reaches .old first last (.clamp 4294967294, .clamp 4294967295) ∧
        lastNumbers.ExportsRange {} r .old (.clamp 4294967294, .clamp 4294967295) ∧
        lastNumbers.ShowsNumber true r first .old (.clamp 4294967294) ∧
        lastNumbers.ShowsNumber true r last .old (.clamp 4294967295) := by
  have there : ∃ r ∈ lastNumbers.hunks, 1 ≤ (r.countOn .old).val ∧
      sizeOn .old r.lines = (r.countOn .old).val ∧
      r.rangeOn .old = (.clamp 4294967294, .clamp 4294967295) := by decide +kernel
  obtain ⟨r, inside, given, counted, range⟩ := there
  obtain ⟨first, last, reaches, agrees⟩ := r.toHunk.numbers_meet_range.2.2 .old given counted
  rw [range] at reaches agrees
  exact ⟨r, inside, given, counted, first, last, reaches, agrees lastNumbers r inside rfl true {}⟩

end HunkReview
