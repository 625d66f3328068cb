import HunkReview.Diff.Inline

/-! Edit scripts rebuild both texts. The table of scripts is filled row by row; its cells satisfy the
recursion that compares first characters, and each cell is a script between its own two suffixes. -/
namespace HunkReview.Inline

/-- The scripts from `old` to every suffix of `new`, the longest first. -/
def scripts (old new : List Char) : List Script :=
  old.foldr (fun x below => nextRow x new below) (firstRow new)

theorem tail_scripts (old : List Char) (y : Char) (b : List Char) :
    (scripts old (y :: b)).tail = scripts old b := by
  induction old with
  | nil => rfl
  | cons x a ih =>
    have row : (scripts (x :: a) (y :: b)).tail = nextRow x b (scripts a (y :: b)).tail := rfl
    rw [row, ih]
    rfl

@[simp] theorem script_nil_nil : script [] [] = .empty := rfl

@[simp] theorem script_nil_cons (y : Char) (b : List Char) :
    script [] (y :: b) = (script [] b).add y := rfl

@[simp] theorem script_cons_nil (x : Char) (a : List Char) :
    script (x :: a) [] = (script a []).remove x := rfl

theorem script_cons_cons (x y : Char) (a b : List Char) :
    script (x :: a) (y :: b) =
      .choose x y (script a b) (script (x :: a) b) (script a (y :: b)) := by
  have row : script (x :: a) (y :: b) =
      .choose x y ((scripts a (y :: b)).tail.head?.getD .empty)
        ((nextRow x b (scripts a (y :: b)).tail).head?.getD .empty) (script a (y :: b)) := rfl
  rw [row, tail_scripts]
  rfl

/-- What holds of the cells at the border and is kept by each choice holds of every script. -/
theorem script_induction (holds : List Char → List Char → Script → Prop)
    (empty : holds [] [] .empty)
    (added : ∀ y b s, holds [] b s → holds [] (y :: b) (s.add y))
    (removed : ∀ x a s, holds a [] s → holds (x :: a) [] (s.remove x))
    (chosen : ∀ x y a b both adding removing, holds a b both → holds (x :: a) b adding →
      holds a (y :: b) removing →
      holds (x :: a) (y :: b) (.choose x y both adding removing))
    (old new : List Char) : holds old new (script old new) := by
  induction old generalizing new with
  | nil =>
    induction new with
    | nil => exact empty
    | cons y b ih => exact added y b _ ih
  | cons x a below =>
    induction new with
    | nil => exact removed x a _ (below [])
    | cons y b beside =>
      rw [script_cons_cons]
      exact chosen x y a b _ _ _ (below b) beside (below (y :: b))

/-! ### The two texts -/

/-- Whether what an edit says is in the text of a side: the side's own, and what is kept. -/
def Edit.isIn (side kind : Edit) : Bool :=
  kind == side || kind == .unchanged

def textOf (side : Edit) (edits : List (Edit × Char)) : List Char :=
  (edits.filter (side.isIn ·.1)).map (·.2)

theorem textOf_cons (side kind : Edit) (c : Char) (edits : List (Edit × Char)) :
    textOf side ((kind, c) :: edits) =
      if side.isIn kind then c :: textOf side edits else textOf side edits := by
  unfold textOf
  rw [List.filter_cons]
  split <;> rfl

theorem textOf_script (old new : List Char) :
    textOf .removed (script old new).edits = old ∧ textOf .added (script old new).edits = new := by
  refine script_induction
    (fun old new s => textOf .removed s.edits = old ∧ textOf .added s.edits = new)
    ⟨rfl, rfl⟩ ?_ ?_ ?_ old new
  · rintro y b s ⟨before, after⟩
    simp [Script.add, textOf_cons, Edit.isIn, before, after]
  · rintro x a s ⟨before, after⟩
    simp [Script.remove, textOf_cons, Edit.isIn, before, after]
  · intro x y a b both adding removing kept added removed
    unfold Script.choose
    split
    · next same => simp [Script.keep, textOf_cons, Edit.isIn, kept, same]
    · split
      · simp [Script.add, textOf_cons, Edit.isIn, added]
      · simp [Script.remove, textOf_cons, Edit.isIn, removed]

/-! ### Parts -/

def partsText (side : Edit) (parts : List Part) : List Char :=
  (parts.filter (side.isIn ·.kind)).flatMap (·.text)

theorem partsText_cons (side : Edit) (p : Part) (ps : List Part) :
    partsText side (p :: ps) =
      if side.isIn p.kind then p.text ++ partsText side ps else partsText side ps := by
  unfold partsText
  rw [List.filter_cons]
  split <;> rfl

theorem partsText_gather (side : Edit) (edits : List (Edit × Char)) :
    partsText side (gather edits) = textOf side edits := by
  fun_induction gather edits with
  | case1 => rfl
  | case2 kind c edits alone ih =>
    rw [textOf_cons, ← ih, alone, partsText_cons]
    rfl
  | case3 c edits p ps parts ih =>
    rw [textOf_cons, ← ih, parts, partsText_cons, partsText_cons]
    split <;> rfl
  | case4 kind c edits p ps parts other ih =>
    rw [textOf_cons, ← ih, parts, partsText_cons]
    rfl

theorem part_ne_nil (edits : List (Edit × Char)) : ∀ p ∈ gather edits, p.text ≠ [] := by
  fun_induction gather edits with
  | case1 => simp
  | case2 kind c edits alone ih => simp
  | case3 c edits p ps parts ih =>
    intro q member
    rcases List.mem_cons.mp member with rfl | member
    · simp
    · exact ih q (parts ▸ List.mem_cons_of_mem p member)
  | case4 kind c edits p ps parts other ih =>
    intro q member
    rcases List.mem_cons.mp member with rfl | member
    · simp
    · exact ih q (parts ▸ member)

/-- The parts of a difference spell both texts. -/
theorem partsText_diff (old new : String) :
    partsText .removed (diff old new) = old.toList ∧
    partsText .added (diff old new) = new.toList := by
  rw [diff, partsText_gather, partsText_gather]
  exact textOf_script old.toList new.toList

end HunkReview.Inline
