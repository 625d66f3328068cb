import HunkReview.Proofs.Review.Parsed
import HunkReview.Proofs.Review.Target
import HunkReview.Proofs.Source.ReadOnce

/-! Reviews of a patch on standard input. Once the patch has been read, it is under review for good: the
review can be refreshed and marked in any order, and a refresh brings back the same hunks with the marks
they had. -/
namespace HunkReview

/-! ### What actions and refreshes keep -/

theorem ChangesFirst.toHunk_eq {id : HunkId} {change : ReviewHunk → ReviewHunk}
    {before after : List ReviewHunk} (changes : ChangesFirst id change before after)
    (same : ∀ h, (change h).toHunk = h.toHunk) :
    after.map (·.toHunk) = before.map (·.toHunk) := by
  obtain ⟨above, h, below, rfl, -, -, rfl⟩ := changes
  simp [same]

/-- An action on one hunk does not change the diff under review. -/
theorem HunkAction.keeps_diff (a : HunkAction) (s : Session) : (a.run s).1.diff = s.diff := by
  have restaged {t : Session} {id : HunkId} {staging : Staging} (effect : s.Restaged id staging t) :
      t.diff = s.diff :=
    effect.hunks.toHunk_eq fun _ => rfl
  have rejudged {t : Session} {id : HunkId} {verdict : Verdict} (effect : s.Rejudged id verdict t) :
      t.diff = s.diff :=
    effect.hunks.toHunk_eq fun _ => rfl
  obtain ⟨-, effect, skipped⟩ := a.targeted s
  by_cases applied : (a.run s).2.applied
  · have changed := effect applied
    cases a with
    | stage id | discard id | clearStaging id => exact restaged changed
    | setVerdict id verdict => exact rejudged changed
    | clearVerdict id => exact rejudged changed
    | addComment c =>
      rw [changed]
      rfl
  · rw [skipped applied]

theorem HunkAction.carries_run (a : HunkAction) {s : Session} (carries : s.Carries) :
    (a.run s).1.Carries := by
  cases a with
  | stage id | discard id | clearStaging id => exact (s.change_setStaging id _).carries carries
  | setVerdict id verdict => exact (s.change_setVerdict id verdict).carries carries
  | clearVerdict id => exact (s.change_setVerdict id _).carries carries
  | addComment c => exact (s.change_addComment c).carries carries

namespace Session

theorem diff_tryBeginRefresh (s : Session) : s.tryBeginRefresh.1.diff = s.diff := by
  unfold tryBeginRefresh
  split <;> rfl

/-- Fetches are made with the guard free, which is free again after them. -/
theorem refresh_eq {m : Type → Type} [Monad m] (fetch : m (Except FetchError String)) (s : Session) :
    s.refresh fetch =
      if s.refreshing then pure (s, .refreshBusy)
      else fetch >>= fun result => pure (s.finishRefresh result) := by
  unfold refresh tryBeginRefresh
  cases s.refreshing with
  | true => rfl
  | false =>
    apply congrArg (fetch >>= ·)
    funext result
    cases result <;> rfl

/-- The first hunk of an identity is where the diff has it, with the marks remembered for it. -/
theorem Carries.map_marks {s : Session} (carries : s.Carries) (id : HunkId) :
    (s.hunk? id).map ReviewHunk.marks = (s.diff.find? (·.id == id)).map fun _ => s.marks id := by
  have first : s.diff.find? (·.id == id) = (s.hunk? id).map (·.toHunk) := List.find?_map ..
  cases found : s.hunk? id with
  | none => simp [first, found]
  | some h => simp [first, found, carries id h found]

end Session

/-! ### Reviews of standard input -/

variable {W : Type}

structure InputReview (W : Type) where
  session : Session
  input : InputPatch
  world : W
  reads : List (InputRead W × Except FetchError String)

/-- Refresh the review through a copy of its source, at once or with a guard that is held until a worker
has read; or act on a hunk. -/
inductive ReviewStep (W : Type) where
  | refresh (r : InputRead W)
  | begin
  | finish (r : InputRead W)
  | act (a : HunkAction)

def ReviewStep.IsRefresh : ReviewStep W → Prop
  | refresh _ | begin | finish _ => True
  | act _ => False

namespace InputReview

def start (session : Session) (world : W) : InputReview W :=
  ⟨session, {}, world, []⟩

def read (r : InputRead W) : StateM (InputReview W) (Except FetchError String) := fun v =>
  let ((answer, input), world) := (r.fetch v.input).run v.world
  (answer, { v with input, world, reads := v.reads ++ [(r, answer)] })

def refresh (v : InputReview W) (r : InputRead W) : InputReview W :=
  let ((session, _), after) := (v.session.refresh (read r)).run v
  { after with session }

def finish (v : InputReview W) (r : InputRead W) : InputReview W :=
  let (answer, after) := (read r).run v
  { after with session := (v.session.finishRefresh answer).1 }

def step (v : InputReview W) : ReviewStep W → InputReview W
  | .refresh r => v.refresh r
  | .begin => { v with session := v.session.tryBeginRefresh.1 }
  | .finish r => v.finish r
  | .act a => { v with session := (a.run v.session).1 }

def run (v : InputReview W) (steps : List (ReviewStep W)) : InputReview W :=
  steps.foldl step v

theorem finish_eq {v : InputReview W} {r : InputRead W} {answer : Except FetchError String}
    {input : InputPatch} {after : W} (read : (r.fetch v.input).run v.world = ((answer, input), after)) :
    v.finish r = ⟨(v.session.finishRefresh answer).1, input, after, v.reads ++ [(r, answer)]⟩ := by
  have answered : r.fetch v.input v.world = ((answer, input), after) := read
  simp [finish, InputReview.read, StateT.run, answered]

/-- While the guard is held nothing is refreshed; otherwise a refresh reads and ends at once. -/
theorem step_refresh (v : InputReview W) (r : InputRead W) :
    v.step (.refresh r) = v ∨ v.step (.refresh r) = v.finish r := by
  rw [step, refresh, Session.refresh_eq]
  cases v.session.refreshing with
  | true => exact .inl rfl
  | false => exact .inr rfl

/-- What has been read is under review, with marks where they belong, and the reads were made one after
the other from the world of the start. -/
structure Sound (world : W) (v : InputReview W) : Prop where
  carries : v.session.Carries
  hunks : ∀ text, v.input.text? = some text → v.session.diff = parseDiff text
  fetched : (InputRead.fetchAll (v.reads.map (·.1)) {}).run world =
    ((v.reads.map (·.2), v.input), v.world)

theorem Sound.finish {world : W} {v : InputReview W} (sound : v.Sound world) (r : InputRead W) :
    (v.finish r).Sound world := by
  rcases read : (r.fetch v.input).run v.world with ⟨⟨answer, input⟩, after⟩
  rw [finish_eq read]
  constructor
  · exact (v.session.change_finishRefresh answer).carries sound.carries
  · intro text remembered
    rw [InputRead.answer_of_remembered read remembered]
    exact Session.diff_applyDiff _ (parseDiff text)
  · simpa using InputRead.run_fetchAll_concat sound.fetched read

/-- Any step keeps a review sound. -/
theorem Sound.step {world : W} {v : InputReview W} (sound : v.Sound world) (s : ReviewStep W) :
    (v.step s).Sound world := by
  cases s with
  | refresh r =>
    rcases v.step_refresh r with same | same <;> rw [same]
    · exact sound
    · exact sound.finish r
  | begin =>
    constructor
    · exact v.session.change_tryBeginRefresh.carries sound.carries
    · intro text remembered
      exact v.session.diff_tryBeginRefresh.trans (sound.hunks text remembered)
    · exact sound.fetched
  | finish r => exact sound.finish r
  | act a =>
    constructor
    · exact a.carries_run sound.carries
    · intro text remembered
      exact (a.keeps_diff v.session).trans (sound.hunks text remembered)
    · exact sound.fetched

theorem Sound.run {world : W} {v : InputReview W} (sound : v.Sound world)
    (steps : List (ReviewStep W)) : (v.run steps).Sound world := by
  induction steps generalizing v with
  | nil => exact sound
  | cons s steps ih => exact ih (sound.step s)

theorem sound_start {session : Session} (carries : session.Carries) (world : W) :
    (start session world).Sound world :=
  ⟨carries, fun _ none => (nomatch none), rfl⟩

/-- A refresh leaves the remembered marks as they are, whatever it reads. -/
theorem marks_step (v : InputReview W) {s : ReviewStep W} (refreshes : s.IsRefresh) :
    (v.step s).session.marks = v.session.marks := by
  have finished (r : InputRead W) : (v.finish r).session.marks = v.session.marks := by
    rcases read : (r.fetch v.input).run v.world with ⟨⟨answer, input⟩, after⟩
    rw [finish_eq read]
    exact v.session.marks_finishRefresh answer
  cases s with
  | refresh r =>
    rcases v.step_refresh r with same | same
    · rw [same]
    · exact same ▸ finished r
  | begin => exact v.session.marks_tryBeginRefresh
  | finish r => exact finished r
  | act a => exact refreshes.elim

/-- The text is under review and stays so: no step asks the world anything, and a refresh leaves the
marks of the hunks as they are. -/
structure Replays (v : InputReview W) (text : String) : Prop where
  hunks : v.session.diff = parseDiff text
  kept : ∀ s, (v.step s).session.diff = parseDiff text ∧ (v.step s).input = v.input ∧
    (v.step s).world = v.world
  marks : ∀ s : ReviewStep W, s.IsRefresh → ∀ id,
    ((v.step s).session.hunk? id).map ReviewHunk.marks = (v.session.hunk? id).map ReviewHunk.marks

/-- What is remembered is not read again. -/
theorem step_remembered {v : InputReview W} {text : String} (remembered : v.input = ⟨some text⟩)
    (s : ReviewStep W) : (v.step s).input = v.input ∧ (v.step s).world = v.world := by
  have finished (r : InputRead W) : (v.finish r).input = v.input ∧ (v.finish r).world = v.world := by
    have read : (r.fetch v.input).run v.world = ((.ok text, v.input), v.world) := by
      rw [remembered, r.fetch_remembered]
      rfl
    rw [finish_eq read]
    exact ⟨rfl, rfl⟩
  cases s with
  | refresh r =>
    rcases v.step_refresh r with same | same
    · exact ⟨congrArg input same, congrArg world same⟩
    · exact same ▸ finished r
  | finish r => exact finished r
  | begin | act a => exact ⟨rfl, rfl⟩

theorem Sound.replays {world : W} {v : InputReview W} (sound : v.Sound world) {text : String}
    (remembered : v.input.text? = some text) : v.Replays text := by
  have hunks := sound.hunks text remembered
  have unasked := step_remembered (v := v) (congrArg InputPatch.mk remembered)
  have kept (s : ReviewStep W) : (v.step s).session.diff = parseDiff text := by
    apply (sound.step s).hunks
    rw [(unasked s).1, remembered]
  refine ⟨hunks, fun s => ⟨kept s, unasked s⟩, fun s refreshes id => ?_⟩
  rw [(sound.step s).carries.map_marks, sound.carries.map_marks, kept, hunks, v.marks_step refreshes]

end InputReview

namespace History

/-- Reads of standard input, through any copies of a source, are tried until one succeeds, and all that
follow give the same text. A review that is refreshed by such reads shows the text from then on, in any
run of refreshes and actions, and each refresh leaves the marks of its hunks as they are. -/
theorem input_replayed (actions : List Action) (world : W) :
    (∀ reads : List (InputRead W), ∃ answers input after,
      (InputRead.fetchAll reads {}).run world = ((answers, input), after) ∧
        ReadOnce world reads answers input after) ∧
    ∀ steps : List (ReviewStep W),
      let v := (InputReview.start (of actions).session world).run steps
      ReadOnce world (v.reads.map (·.1)) (v.reads.map (·.2)) v.input v.world ∧
        (∀ text, v.input.text? = some text → v.Replays text) ∧
        ∀ s : ReviewStep W, s.IsRefresh → ∀ id before after, v.session.hunk? id = some before →
          (v.step s).session.hunk? id = some after → after.marks = before.marks := by
  refine ⟨fun reads => InputRead.readOnce_fetchAll reads world, fun steps => ?_⟩
  intro v
  have start := InputReview.sound_start (agrees_of actions).carries world
  have sound : v.Sound world := start.run steps
  refine ⟨?_, fun text => sound.replays, ?_⟩
  · obtain ⟨answers, input, after, same, once⟩ :=
      InputRead.readOnce_fetchAll (v.reads.map (·.1)) world
    cases sound.fetched.symm.trans same
    exact once
  · intro s refreshes id before after there still
    rw [(sound.step s).carries id after still, sound.carries id before there, v.marks_step refreshes]

def countedRead (answer : Except String String) : InputRead Nat where
  copy := ⟨"/repo", .clamp 3, .patch "-"⟩
  isInput := ⟨"-", rfl, by decide⟩
  reader :=
    { run := fun _ => pure (.notStarted "no git")
      fileText := fun path => pure (.error path)
      inputText := fun calls => (answer, calls + 1) }

/-- The second read succeeds; the third, which would have found nothing, is not made. -/
theorem input_replayed_afterFailure :
    let patch := "diff --git a/f b/f\n@@ -1 +1 @@\n-a\n+b\n"
    let v := (InputReview.start (of [.start "patch -"]).session 0).run
      [.refresh (countedRead (.error "closed")), .refresh (countedRead (.ok patch)), .begin,
        .act (.stage ⟨"f", .clamp 1⟩), .finish (countedRead (.ok ""))]
    v.Replays patch ∧ v.world = 2 ∧
      (v.session.hunk? ⟨"f", .clamp 1⟩).map ReviewHunk.marks = some (.staged, .pending) :=
  ⟨((input_replayed [.start "patch -"] 0).2 _).2.1 _ (by decide +kernel), by decide +kernel,
    by decide +kernel⟩

end History

end HunkReview
