import HunkReview.Proofs.Diff.Numbering

/-! Comments against the lines of their hunk. A comment written at a line is on that line. It is on no
other line, unless the hunk goes past the largest line number: from there on neighbours share it. -/
namespace HunkReview

/-- No number of a line of the hunk was cut down to the largest line number. -/
def Hunk.Unsaturated (h : Hunk) : Prop :=
  ∀ side, (h.startOn side).val + sizeOn side h.lines ≤ LineNo.max + 1

theorem Hunk.length_numbered (h : Hunk) : h.numbered.length = h.lines.length := by
  have sizes := congrArg List.length (map_numberFrom h.oldStart h.newStart h.lines)
  rwa [List.length_map] at sizes

/-- The line at a place in the hunk, with its numbers. -/
theorem Hunk.numbered_getElem (h : Hunk) {i : Nat} (inside : i < h.numbered.length)
    (bound : i < h.lines.length) :
    h.numbered[i].kind = h.lines[i].kind ∧
      ∀ side, h.numbered[i].lineOn side =
        numberOn side (h.startOn side) (sizeOn side (h.lines.take i)) h.lines[i].kind := by
  have split : h.lines = h.lines.take i ++ h.lines[i] :: h.lines.drop (i + 1) := by
    rw [← List.drop_eq_getElem_cons bound, List.take_append_drop]
  have found := numberFrom_getElem? h.oldStart h.newStart (h.lines.take i) h.lines[i]
    (h.lines.drop (i + 1))
  rw [← split, List.length_take_of_le (Nat.le_of_lt bound)] at found
  have line := (List.getElem?_eq_getElem inside).symm.trans found
  rw [Option.some.inj line]
  exact ⟨rfl, fun side => lineOn_numbered h.toHunkHeader _ _ side (sizeOn · (h.lines.take i))⟩

/-- A line has a number on every side that it is on. -/
theorem Hunk.isSome_lineOn {h : Hunk} {l : NumberedLine} (there : l ∈ h.numbered) {side : Side}
    (on : l.kind.isOn side) : (l.lineOn side).isSome := by
  obtain ⟨i, inside, rfl⟩ := List.mem_iff_getElem.mp there
  obtain ⟨kind, numbers⟩ := h.numbered_getElem inside (h.length_numbered ▸ inside)
  rw [numbers, numberOn, if_pos (kind ▸ on)]
  rfl

theorem sizeOn_take_lt {side : Side} {body : List DiffLine} {i j : Nat} (before : i < j)
    (inside : i < body.length) (on : body[i].kind.isOn side) :
    sizeOn side (body.take i) < sizeOn side (body.take j) := by
  have part : (body.take i ++ [body[i]]).Sublist (body.take j) := by
    rw [List.take_append_getElem inside]
    exact List.take_sublist_take_left before
  have count : sizeOn side (body.take i ++ [body[i]]) ≤ sizeOn side (body.take j) :=
    part.countP_le
  rw [sizeOn, List.countP_append, List.countP_singleton, if_pos on] at count
  exact count

/-- No number stands at two lines of one side. -/
theorem Hunk.Unsaturated.numbers_apart {h : Hunk} (unsaturated : h.Unsaturated) :
    h.numbered.Pairwise fun a b => ∀ side n, a.lineOn side = some n → b.lineOn side ≠ some n := by
  rw [List.pairwise_iff_getElem]
  intro i j insideI insideJ before side n numberI numberJ
  have boundI : i < h.lines.length := h.length_numbered ▸ insideI
  have boundJ : j < h.lines.length := h.length_numbered ▸ insideJ
  rw [(h.numbered_getElem insideI boundI).2, numberOn, Option.ite_none_right_eq_some] at numberI
  rw [(h.numbered_getElem insideJ boundJ).2, numberOn, Option.ite_none_right_eq_some] at numberJ
  -- the later line has more lines of the side before it, and neither number was cut down
  have fewer := sizeOn_take_lt before boundI numberI.1
  have whole := sizeOn_take_lt boundJ boundJ numberJ.1
  rw [List.take_length] at whole
  have fits := unsaturated side
  rw [LineNo.max] at fits
  have same := Option.some.inj (numberI.2.trans numberJ.2.symm)
  have values := congrArg LineNo.val same
  rw [LineNo.val_plus (by omega), LineNo.val_plus (by omega)] at values
  omega

/-! ### Comments on lines -/

def NumberedLine.pinSide (pin : NumberedLine) : Side :=
  match pin.kind with
  | .deletion => .old
  | .addition => .new
  | .context => if pin.newLine.isSome then .new else .old

namespace Comment

theorem isOn_iff (c : Comment) (l : NumberedLine) :
    c.isOn l ↔ ∃ pin, c.line = some pin ∧ pin.kind = l.kind ∧
      (pin.lineOn pin.pinSide).isSome ∧ pin.lineOn pin.pinSide = l.lineOn pin.pinSide := by
  unfold isOn NumberedLine.pinSide
  cases pinned : c.line with
  | none => simp
  | some pin =>
    simp only [Bool.and_eq_true, beq_iff_eq, Option.some.injEq, exists_eq_left']
    apply and_congr_right
    intro kind
    rw [← kind]
    cases pin.kind with
    | deletion => simp [NumberedLine.lineOn]
    | addition => simp [NumberedLine.lineOn]
    | context => cases new : pin.newLine <;> simp [NumberedLine.lineOn, new]

/-- A comment written at a line of a hunk is on that line. -/
theorem isOn_write {h : Hunk} {l : NumberedLine} (there : l ∈ h.numbered) (stamp : Stamp)
    (id : HunkId) (file text : String) (selection : Option Selection) :
    (write stamp ⟨id, file, some l⟩ text selection).isOn l := by
  have numbers {side : Side} (on : l.kind.isOn side) := Hunk.isSome_lineOn there on
  refine (isOn_iff _ l).mpr ⟨l.pinned, rfl, ?_⟩
  unfold NumberedLine.pinSide NumberedLine.pinned
  cases kind : l.kind with
  | deletion => exact ⟨rfl, @numbers .old (kind ▸ rfl), rfl⟩
  | addition => exact ⟨rfl, @numbers .new (kind ▸ rfl), rfl⟩
  | context =>
    have given : l.newLine.isSome := @numbers .new (kind ▸ rfl)
    simp only [kind, given, if_true, true_and, and_true]
    exact given

end Comment

/-- A comment is on one line of the hunk at most. -/
theorem Hunk.Unsaturated.isOn_apart {h : Hunk} (unsaturated : h.Unsaturated) :
    h.numbered.Pairwise fun a b => ∀ c : Comment, c.isOn a → ¬c.isOn b := by
  refine unsaturated.numbers_apart.imp fun apart c onA onB => ?_
  obtain ⟨pin, pinned, -, given, numberA⟩ := (c.isOn_iff _).mp onA
  obtain ⟨again, pinnedAgain, -, -, numberB⟩ := (c.isOn_iff _).mp onB
  obtain rfl := Option.some.inj (pinned.symm.trans pinnedAgain)
  obtain ⟨n, number⟩ := Option.isSome_iff_exists.mp given
  exact apart _ n (numberA ▸ number) (numberB ▸ number)

end HunkReview
