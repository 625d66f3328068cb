import HunkReview.Text.Blank
import HunkReview.Text.Lines
import Mathlib.Data.List.TakeDrop
import Mathlib.Data.List.TakeWhile

/-! Cutting a text into lines. No line has a line feed in it, and lines that are written with a line
feed after each are read back, a final carriage return apart. A text before a given character is read
back too, when the character is not in it. -/
namespace HunkReview.Text

theorem stripStart?_eq_some_iff {start cs rest : List Char} :
    stripStart? start cs = some rest ↔ cs = start ++ rest := by
  induction start generalizing cs with
  | nil => simp [stripStart?, eq_comm]
  | cons b bs ih =>
    cases cs with
    | nil => simp [stripStart?]
    | cons c cs =>
      by_cases same : b = c
      · subst same
        simp [stripStart?, ih]
      · simp [stripStart?, same, Ne.symm same]

@[simp] theorem stripStart?_append (start rest : List Char) :
    stripStart? start (start ++ rest) = some rest :=
  stripStart?_eq_some_iff.mpr rfl

theorem stripStart?_isSome_iff {start cs : List Char} :
    (stripStart? start cs).isSome ↔ start <+: cs := by
  rw [Option.isSome_iff_exists]
  exact ⟨fun ⟨rest, h⟩ => ⟨rest, (stripStart?_eq_some_iff.mp h).symm⟩,
    fun ⟨rest, h⟩ => ⟨rest, stripStart?_eq_some_iff.mpr h.symm⟩⟩

theorem pieces_ne_nil (cs : List Char) : pieces cs ≠ [] := by
  cases cs with
  | nil => simp [pieces]
  | cons c cs =>
    simp only [pieces]
    split
    · simp
    · split <;> simp

theorem newline_not_mem_pieces {cs p : List Char} (member : p ∈ pieces cs) : '\n' ∉ p := by
  induction cs generalizing p with
  | nil => simp_all [pieces]
  | cons c cs ih =>
    by_cases feed : c = '\n'
    · rw [pieces, if_pos feed] at member
      rcases List.mem_cons.mp member with rfl | member
      · simp
      · exact ih member
    · rw [pieces, if_neg feed] at member
      cases tail : pieces cs with
      | nil => exact absurd tail (pieces_ne_nil cs)
      | cons q qs =>
        rw [tail] at member
        rcases List.mem_cons.mp member with rfl | member
        · have clean : '\n' ∉ q := ih (tail ▸ List.mem_cons_self)
          simp [clean, Ne.symm feed]
        · exact ih (tail ▸ List.mem_cons_of_mem q member)

theorem pieces_append_newline {line : List Char} (clean : '\n' ∉ line) (rest : List Char) :
    pieces (line ++ '\n' :: rest) = line :: pieces rest := by
  induction line with
  | nil => simp [pieces]
  | cons c cs ih =>
    have feed : c ≠ '\n' := fun e => clean (e ▸ List.mem_cons_self)
    rw [List.cons_append, pieces, if_neg feed, ih fun m => clean (List.mem_cons_of_mem c m)]

theorem dropReturn_start (cs : List Char) : dropReturn cs <+: cs := by
  unfold dropReturn
  split
  · exact List.dropLast_prefix cs
  · exact List.prefix_rfl

theorem mem_closeLines {ps : List (List Char)} {line : List Char} (member : line ∈ closeLines ps) :
    ∃ p ∈ ps, line <+: p := by
  fun_induction closeLines ps with
  | case1 => simp at member
  | case2 => simp at member
  | case3 p => exact ⟨p, by simp, by simp_all⟩
  | case4 p q ps ih =>
    rcases List.mem_cons.mp member with rfl | member
    · exact ⟨p, by simp, dropReturn_start p⟩
    · obtain ⟨r, inside, sub⟩ := ih member
      exact ⟨r, List.mem_cons_of_mem p inside, sub⟩

theorem newline_not_mem_lines {cs line : List Char} (member : line ∈ lines cs) : '\n' ∉ line := by
  obtain ⟨p, inside, sub⟩ := mem_closeLines member
  exact fun feed => newline_not_mem_pieces inside (sub.subset feed)

theorem lines_append_newline {line : List Char} (clean : '\n' ∉ line) (rest : List Char) :
    lines (line ++ '\n' :: rest) = dropReturn line :: lines rest := by
  rw [lines, pieces_append_newline clean]
  cases tail : pieces rest with
  | nil => exact absurd tail (pieces_ne_nil rest)
  | cons p ps => rw [closeLines, lines, tail]

def writeLines (ls : List (List Char)) : List Char :=
  ls.flatMap (· ++ ['\n'])

theorem lines_writeLines {ls : List (List Char)} (clean : ∀ l ∈ ls, '\n' ∉ l) :
    lines (writeLines ls) = ls.map dropReturn := by
  induction ls with
  | nil => rfl
  | cons l ls ih =>
    have split : writeLines (l :: ls) = l ++ '\n' :: writeLines ls := by simp [writeLines]
    rw [split, lines_append_newline (clean l List.mem_cons_self),
      ih fun m inside => clean m (List.mem_cons_of_mem l inside), List.map_cons]

theorem dropReturn_of_ne {cs : List Char} (plain : cs.getLast? ≠ some '\r') : dropReturn cs = cs :=
  if_neg plain

theorem dropReturn_append {start : List Char} (plain : start.getLast? ≠ some '\r')
    (rest : List Char) : dropReturn (start ++ rest) = start ++ dropReturn rest := by
  by_cases empty : rest = []
  · subst empty
    rw [List.append_nil, dropReturn_of_ne plain]
    exact (List.append_nil start).symm
  · have same : (start ++ rest).getLast? = rest.getLast? := by
      rw [List.getLast?_append, List.getLast?_eq_some_getLast empty, Option.some_or]
    unfold dropReturn
    rw [same]
    split
    · exact List.dropLast_append_of_ne_nil empty
    · rfl

/-! ### Up to a character -/

/-- A scan for a character stops right before the first one. -/
theorem span_ne {stop : Char} {name : List Char} (free : stop ∉ name) (rest : List Char) :
    (name ++ stop :: rest).span (· != stop) = (name, stop :: rest) ∧
      name.span (· != stop) = (name, []) := by
  have inside : ∀ c ∈ name, (c != stop) = true := by
    intro c member
    simpa using fun same : c = stop => free (same ▸ member)
  rw [List.span_eq_takeWhile_dropWhile, List.span_eq_takeWhile_dropWhile]
  constructor
  · rw [List.takeWhile_append_of_pos inside, List.dropWhile_append_of_pos inside]
    simp
  · rw [List.takeWhile_eq_self_iff.mpr inside, List.dropWhile_eq_nil_iff.mpr inside]

/-- Where a text ends before a character that is not in it is determined. -/
theorem append_cons_inj {stop : Char} {a b c d : List Char} (free : stop ∉ a) (free' : stop ∉ c)
    (same : a ++ stop :: b = c ++ stop :: d) : a = c ∧ b = d := by
  have scans := congrArg (List.span (· != stop)) same
  rw [(span_ne free b).1, (span_ne free' d).1] at scans
  simpa using scans

end HunkReview.Text
