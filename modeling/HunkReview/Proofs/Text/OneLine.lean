import HunkReview.Proofs.Text.Lines

/-! Texts that fit on one line: none of their characters is a line feed. -/
namespace HunkReview.Text

def OneLine (text : String) : Prop :=
  '\n' ∉ text.toList

instance (text : String) : Decidable (OneLine text) :=
  inferInstanceAs (Decidable ('\n' ∉ text.toList))

@[simp] theorem oneLine_append {a b : String} : OneLine (a ++ b) ↔ OneLine a ∧ OneLine b := by
  simp [OneLine]

@[simp] theorem oneLine_ofList {cs : List Char} : OneLine (String.ofList cs) ↔ '\n' ∉ cs := by
  rw [OneLine, String.toList_ofList]

/-- Decimal digits are no line feeds. -/
theorem oneLine_toString (n : Nat) : OneLine (toString n) := by
  intro feed
  have digits : (toString n).toList = Nat.toDigits 10 n := String.toList_ofList
  rw [digits] at feed
  have digit := Nat.isDigit_of_mem_toDigits (by decide) (by decide) feed
  exact absurd digit (by decide)

theorem dropEndWhile_subset (p : Char → Bool) (cs : List Char) : dropEndWhile p cs ⊆ cs := by
  fun_induction dropEndWhile p cs with
  | case1 => exact List.Subset.refl _
  | case2 => exact List.nil_subset _
  | case3 c cs empty other ih => simp
  | case4 c cs d ds rest ih =>
    rw [rest] at ih
    exact List.cons_subset_cons c ih

theorem dropEndWhile_eq_nil_iff {p : Char → Bool} {cs : List Char} :
    dropEndWhile p cs = [] ↔ ∀ c ∈ cs, p c := by
  fun_induction dropEndWhile p cs with
  | case1 => simp
  | case2 c cs empty holds ih => simpa [holds] using ih.mp empty
  | case3 c cs empty other ih => simp [other]
  | case4 c cs d ds rest ih =>
    simp only [rest, List.cons_ne_nil, false_iff] at ih ⊢
    exact mt List.forall_mem_cons.mp fun all => ih all.2

theorem exists_append_dropEndWhile (p : Char → Bool) (cs : List Char) :
    ∃ dropped, cs = dropEndWhile p cs ++ dropped ∧ ∀ c ∈ dropped, p c := by
  fun_induction dropEndWhile p cs with
  | case1 => exact ⟨[], rfl, by simp⟩
  | case2 c cs empty holds ih =>
    exact ⟨c :: cs, rfl, List.forall_mem_cons.mpr ⟨holds, dropEndWhile_eq_nil_iff.mp empty⟩⟩
  | case3 c cs empty other ih =>
    obtain ⟨dropped, all, held⟩ := ih
    rw [empty] at all
    exact ⟨dropped, congrArg (c :: ·) all, held⟩
  | case4 c cs d ds rest ih =>
    obtain ⟨dropped, all, held⟩ := ih
    rw [rest] at all
    exact ⟨dropped, congrArg (c :: ·) all, held⟩

theorem dropEndWhile_getLast? (p : Char → Bool) (cs : List Char) :
    ∀ c ∈ (dropEndWhile p cs).getLast?, p c = false := by
  fun_induction dropEndWhile p cs with
  | case1 | case2 =>
    intro c last
    cases last
  | case3 c cs empty other ih =>
    intro d last
    cases last
    simpa using other
  | case4 c cs d ds rest ih =>
    rw [rest] at ih
    simpa using ih

theorem dropEndWhile_append_of_all {p : Char → Bool} (cs : List Char) {back : List Char}
    (all : ∀ c ∈ back, p c) : dropEndWhile p (cs ++ back) = dropEndWhile p cs := by
  induction cs with
  | nil => simpa [dropEndWhile] using dropEndWhile_eq_nil_iff.mpr all
  | cons c cs ih => simp [dropEndWhile, ih]

theorem dropEndWhile_of_last {p : Char → Bool} {cs : List Char}
    (last : ∀ c ∈ cs.getLast?, p c = false) : dropEndWhile p cs = cs := by
  obtain ⟨dropped, all, held⟩ := exists_append_dropEndWhile p cs
  rcases List.eq_nil_or_concat dropped with rfl | ⟨front, c, rfl⟩
  · simpa using all.symm
  · have stays := last c (by rw [all]; simp)
    simp [held c (by simp)] at stays

end HunkReview.Text
