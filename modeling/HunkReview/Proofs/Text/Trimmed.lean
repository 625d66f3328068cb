import HunkReview.Proofs.Text.OneLine
import Mathlib.Data.List.TakeWhile

/-! Trimming. What is left of a text without the blanks at its ends is determined by the text. -/
namespace HunkReview.Text

/-- Blanks are cut off at both ends, and no blank is left there. -/
structure IsTrimmed (text trimmed : List Char) : Prop where
  inside : ∃ front back, text = front ++ (trimmed ++ back) ∧
    (∀ c ∈ front, isBlank c) ∧ ∀ c ∈ back, isBlank c
  starts : ∀ c ∈ trimmed.head?, isBlank c = false
  ends : ∀ c ∈ trimmed.getLast?, isBlank c = false

theorem isTrimmed_trim (cs : List Char) : IsTrimmed cs (trim cs) := by
  obtain ⟨back, split, blank⟩ := exists_append_dropEndWhile isBlank (cs.dropWhile isBlank)
  constructor
  · refine ⟨cs.takeWhile isBlank, back, ?_, fun c member => List.mem_takeWhile_imp member, blank⟩
    rw [trim, trimEnd, ← split, List.takeWhile_append_dropWhile]
  · intro c first
    have kept : (cs.dropWhile isBlank).head? = some c := by
      rw [split, List.head?_append]
      exact Option.or_eq_some_iff.mpr (.inl first)
    simpa [kept] using List.head?_dropWhile_not isBlank cs
  · exact dropEndWhile_getLast? isBlank _

theorem IsTrimmed.eq_trim {text trimmed : List Char} (h : IsTrimmed text trimmed) :
    trimmed = trim text := by
  obtain ⟨front, back, rfl, before, after⟩ := h.inside
  rw [trim, List.dropWhile_append_of_pos before]
  cases trimmed with
  | nil =>
    have none : back.dropWhile isBlank = [] := List.dropWhile_eq_nil_iff.mpr after
    rw [List.nil_append, none]
    rfl
  | cons c cs =>
    have first : isBlank c = false := h.starts c rfl
    have start : (c :: cs ++ back).dropWhile isBlank = c :: cs ++ back := by simp [first]
    rw [start, trimEnd, dropEndWhile_append_of_all _ after, dropEndWhile_of_last h.ends]

end HunkReview.Text
