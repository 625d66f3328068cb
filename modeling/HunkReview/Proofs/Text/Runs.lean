import HunkReview.Toml.Writer
import Mathlib.Data.List.Infix

/-! Runs of a character. No run in a text is longer than the longest one that is counted. -/
namespace HunkReview.Text

/-- From `start` on stand `count` of the character, and neither before nor after them one more. -/
structure IsRun (c : Char) (text : List Char) (start count : Nat) : Prop where
  given : 0 < count
  inside : ∀ i, start ≤ i → i < start + count → text[i]? = some c
  starts : ∀ i, i + 1 = start → text[i]? ≠ some c
  stops : text[start + count]? ≠ some c

/-- Where only one character stands, there is a stretch of it. -/
theorem replicate_isInfix {c : Char} {text : List Char} {start count : Nat}
    (inside : ∀ i, start ≤ i → i < start + count → text[i]? = some c) :
    List.replicate count c <:+: text := by
  have stretch : (text.drop start).take count = List.replicate count c := by
    apply List.ext_getElem?
    intro i
    by_cases within : i < count
    · rw [List.getElem?_take_of_lt within, List.getElem?_drop, inside _ (by omega) (by omega),
        List.getElem?_replicate_of_lt within]
    · rw [List.getElem?_take_eq_none (by omega), List.getElem?_eq_none (by simpa using within)]
  rw [← stretch]
  exact (List.take_prefix _ _).isInfix.trans (List.drop_suffix _ _).isInfix

theorem IsRun.isInfix {c : Char} {text : List Char} {start count : Nat}
    (run : IsRun c text start count) : List.replicate count c <:+: text :=
  replicate_isInfix run.inside

theorem run_le_longestRun (c : Char) (run : Nat) (cs : List Char) :
    run ≤ Toml.longestRun c run cs := by
  induction cs generalizing run with
  | nil => exact le_rfl
  | cons d cs ih =>
    rw [Toml.longestRun]
    split
    · exact (Nat.le_succ run).trans (ih (run + 1))
    · exact Nat.le_max_left _ _

theorem add_le_longestRun (c : Char) (run count : Nat) (rest : List Char) :
    run + count ≤ Toml.longestRun c run (List.replicate count c ++ rest) := by
  induction count generalizing run with
  | zero => exact run_le_longestRun c run _
  | succ count ih =>
    have more := ih (run + 1)
    rw [List.replicate_succ, List.cons_append, Toml.longestRun, if_pos rfl]
    omega

theorem le_longestRun {c : Char} {count : Nat} {cs : List Char}
    (stretch : List.replicate count c <:+: cs) (run : Nat) : count ≤ Toml.longestRun c run cs := by
  induction cs generalizing run with
  | nil =>
    have none : count = 0 := by simpa using stretch
    exact none ▸ Nat.zero_le _
  | cons d cs ih =>
    rcases List.infix_cons_iff.mp stretch with ⟨rest, front⟩ | later
    · rw [← front]
      exact (Nat.le_add_left count run).trans (add_le_longestRun c run count rest)
    · rw [Toml.longestRun]
      split
      · exact ih later (run + 1)
      · exact (ih later 0).trans (Nat.le_max_right _ _)

end HunkReview.Text
