import HunkReview.Proofs.Review.Marks

/-! Actions on one hunk. An action takes place exactly when the diff has the hunk that it is for; else
it leaves the session as it is. It changes nothing but what it is for: staging leaves verdicts and other
hunks alone, a verdict leaves staging alone, and a comment is added after the others. -/
namespace HunkReview

/-! ### Stored marks -/

namespace Marks

variable {α : Type}

def stored? (m : Marks α) (id : HunkId) : Option α :=
  (m.entries.find? fun e => e.1 == id).map (·.2)

variable [Inhabited α] [DecidableEq α]

/-- The default mark is not stored. -/
theorem stored?_set_self (m : Marks α) (id : HunkId) (mark : α) :
    (m.set id mark).stored? id = if mark = default then none else some mark := by
  by_cases unmarked : mark = default
  · simp [set, stored?, unmarked]
  · simp [set, stored?, unmarked]

theorem stored?_set_of_ne (m : Marks α) {id other : HunkId} (mark : α) (away : other ≠ id) :
    (m.set id mark).stored? other = m.stored? other := by
  have key : (id == other) = false := beq_false_of_ne away.symm
  by_cases unmarked : mark = default
  · simp only [set, stored?, unmarked, if_true, find?_others_of_ne _ away]
  · simp only [set, stored?, unmarked, if_false, List.find?_cons, key, find?_others_of_ne _ away]

/-- The mark is stored for the identity, and what is stored for others stays. -/
structure SetsOnly (id : HunkId) (mark : α) (before after : Marks α) : Prop where
  here : after.stored? id = if mark = default then none else some mark
  others : ∀ other, other ≠ id → after.stored? other = before.stored? other

theorem setsOnly_set (m : Marks α) (id : HunkId) (mark : α) : SetsOnly id mark m (m.set id mark) where
  here := m.stored?_set_self id mark
  others _ away := m.stored?_set_of_ne mark away

end Marks

/-! ### Changed hunks -/

/-- The first hunk of the identity is changed, and the hunks before and after it stay. -/
def ChangesFirst (id : HunkId) (change : ReviewHunk → ReviewHunk) (before after : List ReviewHunk) :
    Prop :=
  ∃ above h below, before = above ++ h :: below ∧ (∀ g ∈ above, g.id ≠ id) ∧ h.id = id ∧
    after = above ++ change h :: below

theorem ChangesFirst.below {id : HunkId} {change : ReviewHunk → ReviewHunk}
    {hs ks : List ReviewHunk} (changes : ChangesFirst id change hs ks) {g : ReviewHunk}
    (other : g.id ≠ id) : ChangesFirst id change (g :: hs) (g :: ks) := by
  obtain ⟨above, h, below, rfl, others, here, rfl⟩ := changes
  exact ⟨g :: above, h, below, rfl, List.forall_mem_cons.mpr ⟨other, others⟩, here, rfl⟩

namespace Session

theorem isSome_hunk?_iff (s : Session) (id : HunkId) :
    (s.hunk? id).isSome ↔ ∃ h ∈ s.hunks, h.id = id := by
  simp [hunk?, List.find?_isSome]

theorem changesFirst_changeFirst {id : HunkId} (change : ReviewHunk → ReviewHunk)
    {hs : List ReviewHunk} (known : ∃ h ∈ hs, h.id = id) :
    ChangesFirst id change hs (changeFirst id change hs) := by
  induction hs with
  | nil => simp at known
  | cons h hs ih =>
    by_cases here : h.id = id
    · exact ⟨[], h, hs, rfl, by simp, here, by simp [changeFirst, here]⟩
    · obtain rest : ∃ g ∈ hs, g.id = id := by simpa [here] using known
      simpa [changeFirst, here] using (ih rest).below here

/-- Of the session only the staging of one hunk is another. -/
structure Restaged (s : Session) (id : HunkId) (staging : Staging) (t : Session) : Prop where
  hunks : ChangesFirst id (fun h => { h with staging }) s.hunks t.hunks
  stored : Marks.SetsOnly id staging s.stagings t.stagings
  rest : t = { s with hunks := t.hunks, stagings := t.stagings }

structure Rejudged (s : Session) (id : HunkId) (verdict : Verdict) (t : Session) : Prop where
  hunks : ChangesFirst id (fun h => { h with verdict }) s.hunks t.hunks
  stored : Marks.SetsOnly id verdict s.verdicts t.verdicts
  rest : t = { s with hunks := t.hunks, verdicts := t.verdicts }

theorem restaged_setStaging (s : Session) {id : HunkId} (staging : Staging)
    (known : (s.hunk? id).isSome) :
    (s.setStaging id staging).2.applied ∧ s.Restaged id staging (s.setStaging id staging).1 := by
  have first := changesFirst_changeFirst (fun h => { h with staging }) ((s.isSome_hunk?_iff id).mp known)
  rw [setStaging, if_pos known]
  exact ⟨rfl, first, s.stagings.setsOnly_set id staging, rfl⟩

theorem rejudged_setVerdict (s : Session) {id : HunkId} (verdict : Verdict)
    (known : (s.hunk? id).isSome) :
    (s.setVerdict id verdict).2.applied ∧ s.Rejudged id verdict (s.setVerdict id verdict).1 := by
  have first := changesFirst_changeFirst (fun h => { h with verdict }) ((s.isSome_hunk?_iff id).mp known)
  rw [setVerdict, if_pos known]
  exact ⟨rfl, first, s.verdicts.setsOnly_set id verdict, rfl⟩

theorem appended_addComment (s : Session) {c : Comment} (known : (s.hunk? c.hunk).isSome) :
    (s.addComment c).2.applied ∧
      (s.addComment c).1 = { s with comments := s.comments ++ [c] } := by
  rw [addComment, if_pos known]
  cases c.label <;> exact ⟨rfl, rfl⟩

end Session

/-! ### Actions -/

inductive HunkAction where
  | stage (id : HunkId)
  | discard (id : HunkId)
  | clearStaging (id : HunkId)
  | setVerdict (id : HunkId) (verdict : Verdict)
  | clearVerdict (id : HunkId)
  | addComment (c : Comment)

namespace HunkAction

def run (s : Session) : HunkAction → Session × Notice
  | stage id => s.stage id
  | discard id => s.discard id
  | clearStaging id => s.clearStaging id
  | setVerdict id verdict => s.setVerdict id verdict
  | clearVerdict id => s.clearVerdict id
  | addComment c => s.addComment c

def hunk : HunkAction → HunkId
  | stage id | discard id | clearStaging id | setVerdict id _ | clearVerdict id => id
  | addComment c => c.hunk

def Effect (s t : Session) : HunkAction → Prop
  | stage id => s.Restaged id .staged t
  | discard id => s.Restaged id .discarded t
  | clearStaging id => s.Restaged id .pending t
  | setVerdict id verdict => s.Rejudged id verdict t
  | clearVerdict id => s.Rejudged id .pending t
  | addComment c => t = { s with comments := s.comments ++ [c] }

/-- The action takes place if the hunk is in the diff, with its effect and no other; else nothing at
all is changed. -/
structure Targeted (a : HunkAction) (s : Session) : Prop where
  applied : (a.run s).2.applied ↔ ∃ h ∈ s.hunks, h.id = a.hunk
  effect : (a.run s).2.applied → a.Effect s (a.run s).1
  skipped : ¬(a.run s).2.applied → a.run s = (s, .unknownHunk a.hunk)

/-- It is enough to say what is done with a hunk that is known, and that an unknown one is told. -/
theorem targeted_of {a : HunkAction} {s : Session}
    (known : (s.hunk? a.hunk).isSome → (a.run s).2.applied ∧ a.Effect s (a.run s).1)
    (unknown : ¬(s.hunk? a.hunk).isSome → a.run s = (s, .unknownHunk a.hunk)) : a.Targeted s := by
  have present := s.isSome_hunk?_iff a.hunk
  by_cases inside : (s.hunk? a.hunk).isSome
  · obtain ⟨applied, effect⟩ := known inside
    exact ⟨iff_of_true applied (present.mp inside), fun _ => effect,
      fun skipped => absurd applied skipped⟩
  · have ran := unknown inside
    have skipped : ¬(a.run s).2.applied := by simp [ran, Notice.applied]
    exact ⟨iff_of_false skipped (mt present.mpr inside), fun applied => absurd applied skipped,
      fun _ => ran⟩

/-- Every action on one hunk is about that hunk only. -/
theorem targeted (a : HunkAction) (s : Session) : a.Targeted s := by
  apply targeted_of
  · intro known
    cases a with
    | stage id => exact s.restaged_setStaging .staged known
    | discard id => exact s.restaged_setStaging .discarded known
    | clearStaging id => exact s.restaged_setStaging .pending known
    | setVerdict id verdict => exact s.rejudged_setVerdict verdict known
    | clearVerdict id => exact s.rejudged_setVerdict .pending known
    | addComment c => exact s.appended_addComment known
  · intro unknown
    cases a with
    | stage id | discard id | clearStaging id => exact if_neg unknown
    | setVerdict id verdict => exact if_neg unknown
    | clearVerdict id => exact if_neg unknown
    | addComment c => exact if_neg unknown

/-- The first of two hunks of one identity is staged, and its verdict stays. -/
example :
    let s := ((Session.applyDiff {} (parseDiff
      "diff --git a/f b/f\n@@ -1 +1 @@\n-a\n+b\n@@ -7 +1 @@\n-c\n+d\n")).setVerdict
        ⟨"f", .clamp 1⟩ .approved).1
    ((stage ⟨"f", .clamp 1⟩).run s).1.hunks.map ReviewHunk.marks =
        [(.staged, .approved), (.pending, .pending)] ∧
      (stage ⟨"g", .clamp 1⟩).run s = (s, .unknownHunk ⟨"g", .clamp 1⟩) := by
  decide +kernel

end HunkAction

end HunkReview
