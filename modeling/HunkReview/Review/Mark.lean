import HunkReview.Diff.Hunk

/-!
# Marks

A hunk carries two independent marks: whether it is kept and what the reviewer thinks of it.
Marks are remembered by hunk identity, so they outlive the hunks; only marks other than the
default are stored.
-/

namespace HunkReview

inductive Staging where
  | pending
  | staged
  | discarded
  deriving DecidableEq, Repr, Inhabited

def Staging.name : Staging → String
  | pending => "pending"
  | staged => "staged"
  | discarded => "discarded"

inductive Verdict where
  | pending
  | approved
  | needsChanges
  | rejected
  | question
  deriving DecidableEq, Repr, Inhabited

namespace Verdict

def name : Verdict → String
  | pending => "pending"
  | approved => "approved"
  | needsChanges => "needs_changes"
  | rejected => "rejected"
  | question => "question"

def label : Verdict → String
  | pending => "PENDING"
  | approved => "APPROVED"
  | needsChanges => "NEEDS CHANGES"
  | rejected => "REJECTED"
  | question => "QUESTION"

def all : List Verdict :=
  [approved, needsChanges, rejected, question, pending]

theorem mem_all (v : Verdict) : v ∈ all := by
  cases v <;> decide

end Verdict

structure Marks (α : Type) where
  entries : List (HunkId × α) := []
  deriving DecidableEq, Repr

namespace Marks

variable {α : Type} [Inhabited α]

def get (m : Marks α) (id : HunkId) : α :=
  ((m.entries.find? fun e => e.1 == id).map (·.2)).getD default

/-- Forget the old mark of the hunk, and store the new one unless it is the default. -/
def set [DecidableEq α] (m : Marks α) (id : HunkId) (mark : α) : Marks α :=
  let others := m.entries.filter fun e => e.1 != id
  ⟨if mark = default then others else (id, mark) :: others⟩

omit [Inhabited α] in
theorem find?_others_self (entries : List (HunkId × α)) (id : HunkId) :
    (entries.filter fun e => e.1 != id).find? (fun e => e.1 == id) = none := by
  simp [List.find?_eq_none]

omit [Inhabited α] in
theorem find?_others_of_ne (entries : List (HunkId × α)) {id other : HunkId} (h : other ≠ id) :
    (entries.filter fun e => e.1 != id).find? (fun e => e.1 == other) =
      entries.find? (fun e => e.1 == other) := by
  rw [List.find?_filter]
  congr 1
  funext e
  by_cases he : e.1 = other
  · simp [he, h]
  · simp [he]

@[simp] theorem get_set_self [DecidableEq α] (m : Marks α) (id : HunkId) (mark : α) :
    (m.set id mark).get id = mark := by
  unfold set get
  by_cases h : mark = default
  · simp only [h, if_true, find?_others_self, Option.map_none, Option.getD_none]
  · simp [h]

theorem get_set_of_ne [DecidableEq α] (m : Marks α) {id other : HunkId} (mark : α)
    (h : other ≠ id) : (m.set id mark).get other = m.get other := by
  have hb : (id == other) = false := by simpa using fun e : id = other => h e.symm
  unfold set get
  by_cases hm : mark = default
  · simp only [hm, if_true, find?_others_of_ne _ h]
  · simp only [hm, if_false, List.find?_cons, hb, find?_others_of_ne _ h]

end Marks

end HunkReview
