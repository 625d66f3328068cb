import HunkReview.Proofs.Diff.Common
import Mathlib.Data.List.Lex

/-! The chosen script among all scripts. A script is told by the kinds of its edits, one for each
character. Those of a difference keep the most, and where others keep as much, they are the first in
the order of a dictionary: to keep comes before to add, and to add before to remove. -/
namespace HunkReview.Inline

/-! ### Scripts by kinds -/

/-- Edits of these kinds, one for each character, turn the first text into the second. -/
inductive Turns : List Edit → List Char → List Char → Prop
  | done : Turns [] [] []
  | keep (c : Char) {kinds : List Edit} {old new : List Char} (rest : Turns kinds old new) :
    Turns (.unchanged :: kinds) (c :: old) (c :: new)
  | add (c : Char) {kinds : List Edit} {old new : List Char} (rest : Turns kinds old new) :
    Turns (.added :: kinds) old (c :: new)
  | remove (c : Char) {kinds : List Edit} {old new : List Char} (rest : Turns kinds old new) :
    Turns (.removed :: kinds) (c :: old) new

def Edit.rank : Edit → Nat
  | unchanged => 0
  | added => 1
  | removed => 2

/-- To keep comes before to add, and to add before to remove. -/
def Edit.Precedes (e f : Edit) : Prop :=
  e.rank < f.rank

instance : Std.Asymm Edit.Precedes where
  asymm _ _ := Nat.lt_asymm

/-- Of all scripts between two texts that keep the most, the first. -/
structure IsFirstBest (kinds : List Edit) (old new : List Char) : Prop where
  turns : Turns kinds old new
  most : ∀ other, Turns other old new → other.count .unchanged ≤ kinds.count .unchanged
  first : ∀ other, Turns other old new → other.count .unchanged = kinds.count .unchanged →
    kinds = other ∨ List.Lex Edit.Precedes kinds other

def kindsOf (parts : List Part) : List Edit :=
  parts.flatMap fun p => List.replicate p.text.length p.kind

def Script.kinds (s : Script) : List Edit :=
  s.edits.map (·.1)

namespace Script

@[simp] theorem kinds_keep (c : Char) (s : Script) : (s.keep c).kinds = .unchanged :: s.kinds := rfl

@[simp] theorem kinds_add (c : Char) (s : Script) : (s.add c).kinds = .added :: s.kinds := rfl

@[simp] theorem kinds_remove (c : Char) (s : Script) : (s.remove c).kinds = .removed :: s.kinds := rfl

end Script

/-- Gathering edits into parts loses none of their kinds. -/
theorem kindsOf_gather (edits : List (Edit × Char)) : kindsOf (gather edits) = edits.map (·.1) := by
  fun_induction gather edits with
  | case1 => rfl
  | case2 kind c edits alone ih =>
    rw [List.map_cons, ← ih, alone]
    rfl
  | case3 c edits p ps parts ih =>
    rw [List.map_cons, ← ih, parts]
    rfl
  | case4 kind c edits p ps parts other ih =>
    rw [List.map_cons, ← ih, parts]
    rfl

theorem kindsOf_diff (old new : String) :
    kindsOf (diff old new) = (script old.toList new.toList).kinds :=
  kindsOf_gather _

/-! ### The most that is kept -/

/-- What edits keep is in both texts. -/
theorem Turns.exists_common {kinds : List Edit} {old new : List Char} (turns : Turns kinds old new) :
    ∃ common : List Char, common.Sublist old ∧ common.Sublist new ∧
      common.length = kinds.count .unchanged := by
  induction turns with
  | done => exact ⟨[], .slnil, .slnil, rfl⟩
  | keep c rest ih =>
    obtain ⟨common, inOld, inNew, size⟩ := ih
    exact ⟨c :: common, inOld.cons_cons c, inNew.cons_cons c, by simp [size]⟩
  | add c rest ih =>
    obtain ⟨common, inOld, inNew, size⟩ := ih
    exact ⟨common, inOld, inNew.cons c, by simp [size]⟩
  | remove c rest ih =>
    obtain ⟨common, inOld, inNew, size⟩ := ih
    exact ⟨common, inOld.cons c, inNew, by simp [size]⟩

theorem Turns.count_le_kept {kinds : List Edit} {old new : List Char} (turns : Turns kinds old new) :
    kinds.count .unchanged ≤ (script old new).kept := by
  obtain ⟨common, inOld, inNew, size⟩ := turns.exists_common
  rw [← size]
  exact length_le_kept inOld inNew

theorem turns_script (old new : List Char) : Turns (script old new).kinds old new := by
  refine script_induction (fun old new s => Turns s.kinds old new) .done ?_ ?_ ?_ old new
  · intro y b s turns
    exact .add y turns
  · intro x a s turns
    exact .remove x turns
  · intro x y a b both adding removing kept added removed
    unfold Script.choose
    split
    · next same => exact same ▸ .keep x kept
    · split
      · exact .add y added
      · exact .remove x removed

theorem count_kinds (s : Script) :
    s.kinds.count .unchanged = (textOf .unchanged s.edits).length := by
  rw [Script.kinds, List.count, List.countP_map, textOf, List.length_map, List.countP_eq_length_filter]
  simp [Edit.isIn, Function.comp_def]

theorem count_kinds_script (old new : List Char) :
    (script old new).kinds.count .unchanged = (script old new).kept := by
  rw [count_kinds, length_textOf_unchanged]

/-! ### The first of those that keep the most -/

/-- A script that keeps as much as the chosen one comes after it. The two go along together until they
differ; there the chosen one takes the earlier edit, for the later one keeps less or stands behind. -/
theorem Turns.first {other : List Edit} {old new : List Char} (turns : Turns other old new)
    (most : other.count .unchanged = (script old new).kept) :
    (script old new).kinds = other ∨ List.Lex Edit.Precedes (script old new).kinds other := by
  have along {e : Edit} {kinds rest : List Edit}
      (before : kinds = rest ∨ List.Lex Edit.Precedes kinds rest) :
      e :: kinds = e :: rest ∨ List.Lex Edit.Precedes (e :: kinds) (e :: rest) :=
    before.imp (congrArg (e :: ·)) .cons
  induction turns with
  | done => exact .inl rfl
  | @keep c rest old new below ih =>
    rw [script_cons_cons, Script.choose, if_pos rfl] at most ⊢
    exact along (ih (by simpa [Script.keep] using most))
  | @add c rest old new below ih =>
    cases old with
    | nil => exact along (ih (by simpa [Script.add] using most))
    | cons x a =>
      have bound := below.count_le_kept
      rw [script_cons_cons, Script.choose] at most ⊢
      split at most
      · next same =>
        rw [if_pos same]
        exact .inr (.rel Nat.zero_lt_one)
      · next differ =>
        rw [if_neg differ]
        split at most
        · next adding =>
          rw [if_pos adding]
          exact along (ih (by simpa [Script.add] using most))
        · -- with adding less is kept than with what was chosen
          have kept : rest.count .unchanged = (script a (c :: new)).kept := by
            simpa [Script.remove] using most
          omega
  | @remove c rest old new below ih =>
    cases new with
    | nil => exact along (ih (by simpa [Script.remove] using most))
    | cons y b =>
      rw [script_cons_cons, Script.choose] at most ⊢
      split at most
      · next same =>
        rw [if_pos same]
        exact .inr (.rel Nat.zero_lt_two)
      · next differ =>
        rw [if_neg differ]
        split at most
        · next adding =>
          rw [if_pos adding]
          exact .inr (.rel Nat.one_lt_two)
        · next adding =>
          rw [if_neg adding]
          exact along (ih (by simpa [Script.remove] using most))

theorem isFirstBest_script (old new : List Char) : IsFirstBest (script old new).kinds old new where
  turns := turns_script old new
  most other turns := by
    rw [count_kinds_script]
    exact turns.count_le_kept
  first other turns most := by
    rw [count_kinds_script] at most
    exact turns.first most

theorem IsFirstBest.unique {kinds others : List Edit} {old new : List Char}
    (first : IsFirstBest kinds old new) (second : IsFirstBest others old new) : kinds = others := by
  have same : others.count .unchanged = kinds.count .unchanged :=
    Nat.le_antisymm (first.most others second.turns) (second.most kinds first.turns)
  rcases first.first others second.turns same with equal | less
  · exact equal
  · rcases second.first kinds first.turns same.symm with equal | greater
    · exact equal.symm
    · exact absurd greater (Std.Asymm.asymm _ _ less)

/-- A difference keeps as many characters as a longest common subsequence has, and the kinds of its
edits are the first of those that keep the most. That tells them from all others. -/
theorem diff_isFirstBest (old new : String) :
    (∃ common, IsLongestCommon common old.toList new.toList ∧
      (kindsOf (diff old new)).count .unchanged = common.length) ∧
    ∀ kinds, IsFirstBest kinds old.toList new.toList ↔ kinds = kindsOf (diff old new) := by
  have best := isFirstBest_script old.toList new.toList
  rw [kindsOf_diff]
  refine ⟨⟨_, isLongestCommon_diff old new, ?_⟩, fun kinds => ⟨fun other => other.unique best, ?_⟩⟩
  · rw [count_kinds, diff, partsText_gather]
  · rintro rfl
    exact best

/-- Of the scripts that keep one character, the one that adds first. -/
example : kindsOf (diff "ab" "ba") = [.added, .unchanged, .removed] := by decide +kernel

end HunkReview.Inline
