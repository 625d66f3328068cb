import HunkReview.Proofs.Review.History
import Mathlib.Data.List.DropRight

/-! Marks against the log. Marks are kept twice, by identity and on the hunks, and hunks come and go
with each diff. Still the marks of a hunk are the last ones set on it since the review began. -/
namespace HunkReview

/-! ### Reading the log -/

def Action.staging? (hunk : HunkId) : Action → Option Staging
  | stage other => if other = hunk then some .staged else none
  | discard other => if other = hunk then some .discarded else none
  | clearStaging other => if other = hunk then some .pending else none
  | _ => none

def Action.verdict? (hunk : HunkId) : Action → Option Verdict
  | setVerdict other verdict => if other = hunk then some verdict else none
  | clearVerdict other => if other = hunk then some .pending else none
  | _ => none

namespace Entry

/-- Whether a new review began here. -/
def begins (e : Entry) : Bool :=
  match e.action, e.answer with
  | .start _, .told yes => yes
  | _, _ => false

def applied (e : Entry) : Bool :=
  match e.answer with
  | .noticed notice => notice.applied
  | _ => false

end Entry

variable {α : Type} [Inhabited α]

def sinceStart (log : List Entry) : List Entry :=
  log.rtakeWhile fun e => !e.begins

/-- The last mark that an applied action set since the review began, else the default. -/
def lastMark (mark? : Action → Option α) (log : List Entry) : α :=
  (((sinceStart log).filter (·.applied)).filterMap (mark? ·.action)).getLast?.getD default

def lastStaging (hunk : HunkId) (log : List Entry) : Staging :=
  lastMark (Action.staging? hunk) log

def lastVerdict (hunk : HunkId) (log : List Entry) : Verdict :=
  lastMark (Action.verdict? hunk) log

def Entry.markAfter (e : Entry) (mark? : Action → Option α) (before : α) : α :=
  if e.begins then default else if e.applied then (mark? e.action).getD before else before

theorem lastMark_concat (mark? : Action → Option α) (log : List Entry) (e : Entry) :
    lastMark mark? (log ++ [e]) = e.markAfter mark? (lastMark mark? log) := by
  unfold lastMark sinceStart Entry.markAfter
  rw [List.rtakeWhile_concat]
  by_cases begins : e.begins
  · simp [begins]
  · by_cases applied : e.applied
    · cases mark : mark? e.action <;> simp [begins, applied, mark]
    · simp [begins, applied]

/-! ### Marks on the hunks -/

def ReviewHunk.marks (h : ReviewHunk) : Staging × Verdict :=
  (h.staging, h.verdict)

namespace Session

def marks (s : Session) (id : HunkId) : Staging × Verdict :=
  (s.stagings.get id, s.verdicts.get id)

/-- The first hunk of an identity carries the marks remembered for it. -/
def Carries (s : Session) : Prop :=
  ∀ id h, s.hunk? id = some h → h.marks = s.marks id

theorem mem_of_hunk? {s : Session} {id : HunkId} {h : ReviewHunk} (found : s.hunk? id = some h) :
    h ∈ s.hunks ∧ h.id = id :=
  ⟨List.mem_of_find?_eq_some found, by simpa using List.find?_some found⟩

theorem exists_hunk? {s : Session} {id : HunkId} (present : id ∈ s.hunks.map ReviewHunk.id) :
    ∃ h, s.hunk? id = some h := by
  obtain ⟨h, member, named⟩ := List.mem_map.mp present
  exact Option.isSome_iff_exists.mp (List.find?_isSome.mpr ⟨h, member, by simpa using named⟩)

theorem find?_changeFirst {id : HunkId} {change : ReviewHunk → ReviewHunk}
    (same : ∀ h, (change h).id = h.id) (other : HunkId) (hs : List ReviewHunk) :
    (changeFirst id change hs).find? (·.id == other) =
      if other = id then (hs.find? (·.id == other)).map change else hs.find? (·.id == other) := by
  induction hs with
  | nil => simp [changeFirst]
  | cons h hs ih =>
    by_cases here : h.id = id
    · by_cases asked : other = id
      · simp [changeFirst, here, same, asked]
      · have away : ¬id = other := fun e => asked e.symm
        simp [changeFirst, here, same, asked, away]
    · by_cases found : h.id = other
      · have asked : ¬other = id := fun e => here (found.trans e)
        simp [changeFirst, found, asked]
      · simp [changeFirst, here, found, ih]

theorem hunk?_placeHunks {id : HunkId} {h : ReviewHunk} {hs : List ReviewHunk} {offsets : List Nat}
    (found : (placeHunks hs offsets).find? (·.id == id) = some h) :
    ∃ before offset, hs.find? (·.id == id) = some before ∧ h = { before with offset } := by
  induction hs generalizing offsets with
  | nil => simp [placeHunks] at found
  | cons b hs ih =>
    cases offsets with
    | nil => exact ⟨h, h.offset, found, rfl⟩
    | cons offset offsets =>
      have same : ReviewHunk.id { b with offset } = b.id := rfl
      by_cases here : b.id = id
      · simp only [placeHunks, List.find?_cons, same, here, beq_self_eq_true, Option.some.injEq]
          at found ⊢
        exact ⟨b, offset, rfl, found.symm⟩
      · have away : (b.id == id) = false := beq_false_of_ne here
        simp only [placeHunks, List.find?_cons, same, away] at found ⊢
        exact ih found

theorem carries_applyDiff (s : Session) (hunks : List Hunk) : (s.applyDiff hunks).Carries := by
  intro id h found
  obtain ⟨member, rfl⟩ := mem_of_hunk? found
  obtain ⟨raw, -, rfl⟩ := List.mem_map.mp member
  rfl

/-- Changing the first hunk of an identity and its remembered marks alike. -/
theorem carries_changeFirst {s t : Session} (carries : s.Carries) (id : HunkId)
    (change : ReviewHunk → ReviewHunk) (same : ∀ h, (change h).id = h.id)
    (hunks : t.hunks = changeFirst id change s.hunks)
    (away : ∀ other, other ≠ id → t.marks other = s.marks other)
    (here : ∀ h, h.marks = s.marks id → (change h).marks = t.marks id) : t.Carries := by
  intro other h found
  rw [hunk?, hunks, find?_changeFirst same] at found
  split at found
  · next asked =>
    subst asked
    obtain ⟨before, earlier, rfl⟩ := Option.map_eq_some_iff.mp found
    exact here before (carries _ _ earlier)
  · next asked => exact (carries _ _ found).trans (away other asked).symm

theorem Change.carries {s t : Session} (change : s.Change t) (carries : s.Carries) : t.Carries := by
  cases change with
  | nothing => exact carries
  | begun label =>
    intro id h found
    cases (mem_of_hunk? found).1
  | guarded => exact carries
  | replaced text refreshing => exact carries_applyDiff s (parseDiff text)
  | staged id staging known =>
    refine carries_changeFirst carries id (fun h => { h with staging }) (fun _ => rfl) rfl ?_ ?_
    · intro other ne
      simp [marks, Marks.get_set_of_ne _ _ ne]
    · intro h known
      simp only [ReviewHunk.marks, marks, Prod.mk.injEq, Marks.get_set_self] at known ⊢
      exact ⟨trivial, known.2⟩
  | judged id verdict known =>
    refine carries_changeFirst carries id (fun h => { h with verdict }) (fun _ => rfl) rfl ?_ ?_
    · intro other ne
      simp [marks, Marks.get_set_of_ne _ _ ne]
    · intro h known
      simp only [ReviewHunk.marks, marks, Prod.mk.injEq, Marks.get_set_self] at known ⊢
      exact ⟨known.1, trivial⟩
  | commented c known => exact carries
  | answered feedback => exact carries
  | asked request => exact carries
  | placed offsets =>
    intro id h found
    obtain ⟨before, offset, earlier, rfl⟩ := hunk?_placeHunks found
    exact carries id before earlier

end Session

/-! ### Remembered marks -/

namespace Session

theorem marks_setStaging (s : Session) (id : HunkId) (staging : Staging) (other : HunkId) :
    (s.setStaging id staging).1.marks other =
      (if (s.setStaging id staging).2.applied then
        (if id = other then some staging else none).getD (s.marks other).1
      else (s.marks other).1, (s.marks other).2) := by
  unfold setStaging
  split
  · by_cases same : id = other
    · simp [same, Notice.applied, marks]
    · have away : other ≠ id := fun e => same e.symm
      simp [same, Notice.applied, marks, Marks.get_set_of_ne _ _ away]
  · rfl

theorem marks_setVerdict (s : Session) (id : HunkId) (verdict : Verdict) (other : HunkId) :
    (s.setVerdict id verdict).1.marks other =
      ((s.marks other).1, if (s.setVerdict id verdict).2.applied then
        (if id = other then some verdict else none).getD (s.marks other).2
      else (s.marks other).2) := by
  unfold setVerdict
  split
  · by_cases same : id = other
    · simp [same, Notice.applied, marks]
    · have away : other ≠ id := fun e => same e.symm
      simp [same, Notice.applied, marks, Marks.get_set_of_ne _ _ away]
  · rfl

/-- A fetch changes the hunks only. -/
theorem marks_finishRefresh (s : Session) (result : Except FetchError String) :
    (s.finishRefresh result).1.marks = s.marks := by
  cases result <;> rfl

theorem marks_refresh (s : Session) (result : Except FetchError String) :
    (Id.run (s.refresh (pure result))).1.marks = s.marks := by
  unfold refresh tryBeginRefresh
  cases s.refreshing with
  | false => exact marks_finishRefresh _ result
  | true => rfl

theorem marks_addComment (s : Session) (c : Comment) : (s.addComment c).1.marks = s.marks := by
  unfold addComment
  split <;> rfl

theorem marks_tryBeginRefresh (s : Session) : s.tryBeginRefresh.1.marks = s.marks := by
  unfold tryBeginRefresh
  split <;> rfl

end Session

theorem Entry.markAfter_of_none {e : Entry} (goesOn : e.begins = false)
    (mark? : Action → Option α) (other : mark? e.action = none) (before : α) :
    e.markAfter mark? before = before := by
  simp [markAfter, goesOn, other]

/-- What a session remembers after an action is what the action's entry says. -/
theorem Action.marks_run (s : Session) (a : Action) (hunk : HunkId) :
    (a.run s).1.marks hunk =
      ((a.entry s).markAfter (staging? hunk) (s.marks hunk).1,
        (a.entry s).markAfter (verdict? hunk) (s.marks hunk).2) := by
  have untouched : ∀ {t : Session}, t.marks = s.marks → (a.entry s).begins = false →
      a.staging? hunk = none → a.verdict? hunk = none →
      t.marks hunk = ((a.entry s).markAfter (staging? hunk) (s.marks hunk).1,
        (a.entry s).markAfter (verdict? hunk) (s.marks hunk).2) := by
    intro t kept goesOn noStaging noVerdict
    rw [kept, Entry.markAfter_of_none goesOn _ noStaging, Entry.markAfter_of_none goesOn _ noVerdict]
  cases a with
  | start label =>
    by_cases same : s.label = some label
    · simp [run, entry, Session.start, same, Entry.markAfter, Entry.begins, Entry.applied]
    · simp [run, entry, Session.start, same, Entry.markAfter, Entry.begins, Session.marks,
        Marks.get]
  | applyDiff text => exact untouched rfl rfl rfl rfl
  | tryBeginRefresh => exact untouched s.marks_tryBeginRefresh rfl rfl rfl
  | finishRefresh result => exact untouched (s.marks_finishRefresh result) rfl rfl rfl
  | refresh result => exact untouched (s.marks_refresh result) rfl rfl rfl
  | stage id =>
    rw [Entry.markAfter_of_none rfl (verdict? hunk) rfl]
    exact s.marks_setStaging id .staged hunk
  | discard id =>
    rw [Entry.markAfter_of_none rfl (verdict? hunk) rfl]
    exact s.marks_setStaging id .discarded hunk
  | clearStaging id =>
    rw [Entry.markAfter_of_none rfl (verdict? hunk) rfl]
    exact s.marks_setStaging id .pending hunk
  | setVerdict id verdict =>
    rw [Entry.markAfter_of_none rfl (staging? hunk) rfl]
    exact s.marks_setVerdict id verdict hunk
  | clearVerdict id =>
    rw [Entry.markAfter_of_none rfl (staging? hunk) rfl]
    exact s.marks_setVerdict id .pending hunk
  | addComment c => exact untouched (s.marks_addComment c) rfl rfl rfl
  | setFeedback text => exact untouched rfl rfl rfl rfl
  | setRequest text => exact untouched rfl rfl rfl rfl
  | render showHelp => exact untouched rfl rfl rfl rfl

/-! ### Histories -/

/-- Both copies of the marks agree with the log. -/
structure History.Agrees (r : History) : Prop where
  marks : ∀ id, r.session.marks id = (lastStaging id r.log, lastVerdict id r.log)
  carries : r.session.Carries

namespace History

theorem agrees_new : Agrees {} where
  marks _ := rfl
  carries _ _ found := nomatch found

theorem Agrees.step {r : History} (agrees : r.Agrees) (a : Action) : (r.step a).Agrees where
  marks id := by
    have staging : (r.session.marks id).1 = lastMark (Action.staging? id) r.log :=
      congrArg Prod.fst (agrees.marks id)
    have verdict : (r.session.marks id).2 = lastMark (Action.verdict? id) r.log :=
      congrArg Prod.snd (agrees.marks id)
    rw [lastStaging, lastVerdict, History.step, lastMark_concat, lastMark_concat, ← staging,
      ← verdict]
    exact a.marks_run r.session id
  carries := (a.change_run r.session).carries agrees.carries

theorem agrees_of (actions : List Action) : (of actions).Agrees :=
  of_induction Agrees agrees_new (fun _ a agrees => agrees.step a) actions

/-- Whatever happened before: a hunk under review has the staging and the verdict last set on it
since the review began. -/
theorem marks_eq_last (actions : List Action) {id : HunkId}
    (present : id ∈ (of actions).session.hunks.map ReviewHunk.id) :
    (of actions).session.stagingOf id = some (lastStaging id (of actions).log) ∧
    ∃ h, (of actions).session.hunk? id = some h ∧
      h.staging = lastStaging id (of actions).log ∧
      h.verdict = lastVerdict id (of actions).log := by
  have agrees := agrees_of actions
  obtain ⟨h, found⟩ := Session.exists_hunk? present
  have marks := Prod.ext_iff.mp ((agrees.carries id h found).trans (agrees.marks id))
  refine ⟨?_, h, found, marks.1, marks.2⟩
  have remembered := (Prod.ext_iff.mp (agrees.marks id)).1
  rw [Session.stagingOf, found, Option.map_some]
  exact congrArg some remembered

def goneAndBack : List Action :=
  let diff := "diff --git a/f b/f\n@@ -1 +1 @@\n-a\n+b\n@@ -9 +9 @@\n c\n"
  [.start "patch", .applyDiff diff, .stage ⟨"f", .clamp 1⟩, .setVerdict ⟨"f", .clamp 1⟩ .approved,
    .finishRefresh (.error (.notStarted "no git")), .discard ⟨"f", .clamp 1⟩,
    .finishRefresh (.ok diff), .stage ⟨"f", .clamp 9⟩, .clearStaging ⟨"f", .clamp 9⟩, .render true]

/-- The hunk is back with the marks it had. -/
theorem marks_eq_last_goneAndBack :
    (of goneAndBack).session.stagingOf ⟨"f", .clamp 1⟩ = some .staged ∧
    ∃ h, (of goneAndBack).session.hunk? ⟨"f", .clamp 1⟩ = some h ∧
      h.staging = .staged ∧ h.verdict = .approved := by
  have present : ⟨"f", .clamp 1⟩ ∈ (of goneAndBack).session.hunks.map ReviewHunk.id := by
    decide +kernel
  have staging : lastStaging ⟨"f", .clamp 1⟩ (of goneAndBack).log = .staged := by decide +kernel
  have verdict : lastVerdict ⟨"f", .clamp 1⟩ (of goneAndBack).log = .approved := by decide +kernel
  have marks := marks_eq_last goneAndBack present
  rwa [staging, verdict] at marks

end History

end HunkReview
