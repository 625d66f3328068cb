import HunkReview.Proofs.Diff.Script
import Mathlib.Data.List.Basic

/-! The chosen script keeps as much as any script could: what it keeps is a longest common subsequence
of the two texts. Where the first characters agree nothing is lost by keeping them; where they differ,
a common subsequence does without one of them. -/
namespace HunkReview.Inline

/-- A text whose characters are found in order in both texts, and no other such text is longer. -/
structure IsLongestCommon (common old new : List Char) : Prop where
  inOld : common.Sublist old
  inNew : common.Sublist new
  longest : ∀ other : List Char, other.Sublist old → other.Sublist new →
    other.length ≤ common.length

/-- What is kept is in the text of either side. -/
theorem textOf_unchanged_sublist (side : Edit) (edits : List (Edit × Char)) :
    (textOf .unchanged edits).Sublist (textOf side edits) := by
  have kept : ∀ e : Edit × Char, Edit.isIn .unchanged e.1 → side.isIn e.1 := by
    intro e unchanged
    have same : e.1 = .unchanged := by simpa [Edit.isIn] using unchanged
    simp [Edit.isIn, same]
  exact (List.monotone_filter_right edits kept).map _

theorem length_textOf_unchanged (old new : List Char) :
    (textOf .unchanged (script old new).edits).length = (script old new).kept := by
  refine script_induction (fun _ _ s => (textOf .unchanged s.edits).length = s.kept) rfl ?_ ?_ ?_ old
    new
  · intro y b s count
    simpa [Script.add, textOf_cons, Edit.isIn] using count
  · intro x a s count
    simpa [Script.remove, textOf_cons, Edit.isIn] using count
  · intro x y a b both adding removing kept added removed
    unfold Script.choose
    split
    · simpa [Script.keep, textOf_cons, Edit.isIn] using kept
    · split
      · simpa [Script.add, textOf_cons, Edit.isIn] using added
      · simpa [Script.remove, textOf_cons, Edit.isIn] using removed

/-- A common subsequence of texts that begin differently does without one of the beginnings. -/
theorem sublist_of_cons_ne {x y : Char} {a b common : List Char} (differ : x ≠ y)
    (old : common.Sublist (x :: a)) (new : common.Sublist (y :: b)) :
    common.Sublist b ∨ common.Sublist a := by
  rcases List.sublist_cons_iff.mp new with without | ⟨rest, rfl, inside⟩
  · exact .inl without
  · rcases List.sublist_cons_iff.mp old with without | ⟨_, same, -⟩
    · exact .inr without
    · exact absurd (List.cons.inj same).1.symm differ

theorem length_le_kept {old new common : List Char} (inOld : common.Sublist old)
    (inNew : common.Sublist new) : common.length ≤ (script old new).kept := by
  refine script_induction
    (fun old new s => ∀ common : List Char, common.Sublist old → common.Sublist new →
      common.length ≤ s.kept) ?_ ?_ ?_ ?_ old new common inOld inNew
  · intro common old new
    simp [List.sublist_nil.mp old]
  · intro y b s bound common old new
    simp [List.sublist_nil.mp old]
  · intro x a s bound common old new
    simp [List.sublist_nil.mp new]
  · intro x y a b both adding removing kept added removed common old new
    unfold Script.choose
    split
    · -- the rest of a common subsequence is one of the rests
      have rest := kept common.tail old.tail new.tail
      rw [List.length_tail] at rest
      simp only [Script.keep]
      omega
    · next differ =>
      have bound : common.length ≤ adding.kept ∨ common.length ≤ removing.kept :=
        (sublist_of_cons_ne differ old new).imp (added common old ·) (removed common · new)
      split
      · simp only [Script.add]
        omega
      · simp only [Script.remove]
        omega

/-- What the parts of a difference keep is a longest common subsequence. -/
theorem isLongestCommon_diff (old new : String) :
    IsLongestCommon (partsText .unchanged (diff old new)) old.toList new.toList := by
  obtain ⟨before, after⟩ := textOf_script old.toList new.toList
  rw [diff, partsText_gather]
  constructor
  · have kept := textOf_unchanged_sublist .removed (script old.toList new.toList).edits
    rwa [before] at kept
  · have kept := textOf_unchanged_sublist .added (script old.toList new.toList).edits
    rwa [after] at kept
  · intro other inOld inNew
    rw [length_textOf_unchanged]
    exact length_le_kept inOld inNew

end HunkReview.Inline
