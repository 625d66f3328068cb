import HunkReview.Proofs.Diff.Printed

/-! Written identities. The line has no colon in its digits, so the last colon ends the file, whatever
colons the file has itself; the file and the line are read back from the text, and no two identities are
written alike. -/
namespace HunkReview

namespace HunkId

/-- The file before the last colon, and the line after it. -/
def ofText? (s : String) : Option HunkId :=
  let back := s.toList.reverse
  match back.dropWhile (· ≠ ':') with
  | _ :: file =>
    (LineNo.ofDigits? (back.takeWhile (· ≠ ':')).reverse).map (⟨String.ofList file.reverse, ·⟩)
  | [] => none

theorem ofText?_text (id : HunkId) : ofText? id.text = some id := by
  have digits : ∀ c ∈ (Nat.toDigits 10 id.newStart.val).reverse, decide (c ≠ ':') := by
    intro c member
    have digit := Text.isDigit_of_mem_toDigits (List.mem_reverse.mp member)
    refine decide_eq_true ?_
    rintro rfl
    exact absurd digit (by decide)
  have back : id.text.toList.reverse =
      (Nat.toDigits 10 id.newStart.val).reverse ++ ':' :: id.file.toList.reverse := by
    have colon : ":".toList = [':'] := by decide
    simp [text, LineNo.toList_render, colon]
  simp only [ofText?, back, List.dropWhile_append_of_pos digits,
    List.takeWhile_append_of_pos digits]
  simp [id.newStart.ofDigits?_toDigits]

/-- No two identities are written alike. -/
@[simp] theorem text_inj {a b : HunkId} : a.text = b.text ↔ a = b := by
  constructor
  · intro same
    apply Option.some.inj
    calc some a = ofText? a.text := a.ofText?_text.symm
      _ = ofText? b.text := congrArg ofText? same
      _ = some b := b.ofText?_text
  · exact congrArg text

@[simp] theorem beq_text (a b : HunkId) : (a.text == b.text) = (a == b) := by
  by_cases same : a = b
  · simp [same]
  · simp [same, beq_eq_false_iff_ne.mpr same]

theorem text_eq_text_iff (f g : String) (m n : LineNo) :
    text ⟨f, m⟩ = text ⟨g, n⟩ ↔ f = g ∧ m = n := by
  simp

end HunkId

end HunkReview
