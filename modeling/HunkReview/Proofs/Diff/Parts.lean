import HunkReview.Proofs.Diff.First
import Mathlib.Data.List.Chain

/-! The parts of a difference spell both texts, none of them is empty, and neighbours differ in kind.
Such parts are as long as they can be, so the kinds of their characters tell them from all others. -/
namespace HunkReview.Inline

/-- What is removed or unchanged spells the old text, and what is added or unchanged the new one; each
part says something, and goes on for as long as its kind does. -/
structure IsSpelling (parts : List Part) (old new : String) : Prop where
  old : partsText .removed parts = old.toList
  new : partsText .added parts = new.toList
  nonempty : ∀ p ∈ parts, p.text ≠ []
  alternate : parts.IsChain fun p q => p.kind ≠ q.kind

theorem alternate_gather (edits : List (Edit × Char)) :
    (gather edits).IsChain fun p q => p.kind ≠ q.kind := by
  fun_induction gather edits with
  | case1 => exact .nil
  | case2 kind c edits alone ih => exact .singleton _
  | case3 c edits p ps parts ih =>
    -- the first part grows, and keeps its kind
    rw [parts] at ih
    cases ps with
    | nil => exact .singleton _
    | cons q ps => simpa using ih
  | case4 kind c edits p ps parts other ih =>
    rw [parts] at ih
    exact .cons_cons (Ne.symm other) ih

/-! ### From parts back to edits -/

def editsOf (parts : List Part) : List (Edit × Char) :=
  parts.flatMap fun p => p.text.map (p.kind, ·)

/-- Edits of one kind in front of edits that start with another are gathered into a part of their own. -/
theorem gather_stretch {kind : Edit} {text : List Char} (nonempty : text ≠ [])
    {edits : List (Edit × Char)} (other : ∀ p ∈ (gather edits).head?, kind ≠ p.kind) :
    gather (text.map (kind, ·) ++ edits) = ⟨kind, text⟩ :: gather edits := by
  induction text with
  | nil => exact absurd rfl nonempty
  | cons c text ih =>
    cases text with
    | nil =>
      cases rest : gather edits with
      | nil => simp [gather, rest]
      | cons p ps =>
        have apart : p.kind ≠ kind := Ne.symm (other p (by simp [rest]))
        simp [gather, rest, apart]
    | cons d text =>
      have below := ih (by simp)
      simp only [List.map_cons, List.cons_append] at below ⊢
      rw [gather, below]
      simp

theorem gather_editsOf {parts : List Part} (nonempty : ∀ p ∈ parts, p.text ≠ [])
    (alternate : parts.IsChain fun p q => p.kind ≠ q.kind) : gather (editsOf parts) = parts := by
  induction parts with
  | nil => rfl
  | cons p parts ih =>
    obtain ⟨first, below⟩ := List.forall_mem_cons.mp nonempty
    obtain ⟨apart, alternates⟩ := List.isChain_cons.mp alternate
    have rest := ih below alternates
    have other : ∀ q ∈ (gather (editsOf parts)).head?, p.kind ≠ q.kind := by
      rw [rest]
      exact apart
    have split : editsOf (p :: parts) = p.text.map (p.kind, ·) ++ editsOf parts :=
      List.flatMap_cons
    rw [split, gather_stretch first other, rest]

/-- Edits are told by their kinds and the two texts. -/
theorem edits_ext {edits others : List (Edit × Char)} (kinds : edits.map (·.1) = others.map (·.1))
    (old : textOf .removed edits = textOf .removed others)
    (new : textOf .added edits = textOf .added others) : edits = others := by
  induction edits generalizing others with
  | nil => simpa using kinds.symm
  | cons e edits ih =>
    cases others with
    | nil => simp at kinds
    | cons f others =>
      obtain ⟨kind, c⟩ := e
      obtain ⟨kind', d⟩ := f
      obtain ⟨rfl, below⟩ : kind = kind' ∧ edits.map (·.1) = others.map (·.1) := by
        simpa using kinds
      have rest : c = d ∧ textOf .removed edits = textOf .removed others ∧
          textOf .added edits = textOf .added others := by
        cases kind <;> simp_all [textOf_cons, Edit.isIn]
      obtain ⟨rfl, old, new⟩ := rest
      rw [ih below old new]

/-! ### Spelling -/

theorem isSpelling_diff (old new : String) : IsSpelling (diff old new) old new where
  old := (partsText_diff old new).1
  new := (partsText_diff old new).2
  nonempty := part_ne_nil _
  alternate := alternate_gather _

/-- Two spellings whose characters are of the same kinds have the same parts. -/
theorem IsSpelling.unique {parts others : List Part} {old new : String}
    (first : IsSpelling parts old new) (second : IsSpelling others old new)
    (kinds : kindsOf parts = kindsOf others) : parts = others := by
  have gathered := gather_editsOf first.nonempty first.alternate
  have gathered' := gather_editsOf second.nonempty second.alternate
  have text (side : Edit) : textOf side (editsOf parts) = partsText side parts := by
    rw [← partsText_gather, gathered]
  have text' (side : Edit) : textOf side (editsOf others) = partsText side others := by
    rw [← partsText_gather, gathered']
  have same : editsOf parts = editsOf others := by
    apply edits_ext
    · rw [← kindsOf_gather, ← kindsOf_gather, gathered, gathered', kinds]
    · rw [text, text', first.old, second.old]
    · rw [text, text', first.new, second.new]
  rw [← gathered, ← gathered', same]

/-- The parts of a difference spell both texts, and no other parts of the same kinds do. -/
theorem diff_spells (old new : String) :
    IsSpelling (diff old new) old new ∧
      ∀ parts, IsSpelling parts old new ∧ kindsOf parts = kindsOf (diff old new) ↔
        parts = diff old new := by
  have spelling := isSpelling_diff old new
  refine ⟨spelling, fun parts => ⟨fun ⟨other, kinds⟩ => other.unique spelling kinds, ?_⟩⟩
  rintro rfl
  exact ⟨spelling, rfl⟩

end HunkReview.Inline
