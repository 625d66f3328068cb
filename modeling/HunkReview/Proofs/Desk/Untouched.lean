import HunkReview.Proofs.Desk.Navigation
import HunkReview.Proofs.Desk.Prompted
import HunkReview.Proofs.Desk.Revised
import HunkReview.Proofs.Text.Joined

/-! Prompts that are answered untouched. The prompts for the feedback and for the request open with the
text that there is; when no key is pressed before Enter, that text is kept as it was. -/
namespace HunkReview

/-- The text of an editor that is opened on a text is made of the lines of that text. -/
theorem Editor.text_ofText (text : String) :
    (Editor.ofText text).text = Text.joinLines (Text.stringLines text) := by
  unfold Editor.ofText Text.stringLines
  split
  · next none =>
    rw [none]
    rfl
  · rfl

/-- A kept text is kept again after a prompt was opened on it, and so is there being none. -/
theorem Editor.nonBlank?_ofText {kept : Option String}
    (set : kept = none ∨ ∃ text : String, '\r' ∉ text.toList ∧ kept = Text.nonBlank? text) :
    Text.nonBlank? (Editor.ofText (kept.getD "")).text = kept := by
  rw [text_ofText]
  cases kept with
  | none => rfl
  | some kept =>
    obtain none | ⟨text, plain, keeps⟩ := set
    · cases none
    · rw [Option.getD_some, Text.joinLines_of_kept plain keeps.symm]
      exact Text.nonBlank?_of_kept keeps.symm

/-- The feedback and the request were last set from texts without carriage returns, or there are none. -/
structure Session.SetPlainly (s : Session) : Prop where
  feedback : s.feedback = none ∨ ∃ (before : Session) (text : String), '\r' ∉ text.toList ∧
    s.feedback = (before.setFeedback text).1.feedback
  request : s.request = none ∨ ∃ (before : Session) (text : String), '\r' ∉ text.toList ∧
    s.request = (before.setRequest text).1.request

theorem Session.SetPlainly.feedback_again {s : Session} (set : s.SetPlainly) :
    Text.nonBlank? (Editor.ofText (s.feedback.getD "")).text = s.feedback :=
  Editor.nonBlank?_ofText (set.feedback.imp_right fun ⟨_, text, set⟩ => ⟨text, set⟩)

theorem Session.SetPlainly.request_again {s : Session} (set : s.SetPlainly) :
    Text.nonBlank? (Editor.ofText (s.request.getD "")).text = s.request :=
  Editor.nonBlank?_ofText (set.request.imp_right fun ⟨_, text, set⟩ => ⟨text, set⟩)

namespace Desk

def Typed (d : Desk) (purpose : Purpose) (typed : String) : Prop :=
  ∃ editor, d.mode = .prompt purpose editor ∧ editor.text = typed

/-- What has been typed stays, and of the session only the hunks and the refresh guard may be others. -/
structure LeavesTyped (d e : Desk) : Prop where
  typed : ∀ purpose typed, d.Typed purpose typed → e.Typed purpose typed
  session : e.session =
    { d.session with hunks := e.session.hunks, refreshing := e.session.refreshing }

theorem leavesTyped_refl (d : Desk) : d.LeavesTyped d :=
  ⟨fun _ _ typed => typed, rfl⟩

theorem LeavesTyped.trans {d e f : Desk} (first : d.LeavesTyped e) (second : e.LeavesTyped f) :
    d.LeavesTyped f where
  typed purpose typed there := second.typed purpose typed (first.typed purpose typed there)
  session := by rw [second.session, first.session]

theorem Undisturbed.leavesTyped {d e : Desk} (undisturbed : d.Undisturbed e) : d.LeavesTyped e where
  typed _ _ := fun ⟨editor, prompt, text⟩ => ⟨editor, undisturbed.mode.trans prompt, text⟩
  session := undisturbed.session

theorem leavesTyped_setViewport (rows : Nat) (d : Desk) : d.LeavesTyped (d.setViewport rows) := by
  obtain ⟨scroll, shown⟩ := revealCursor_eq { d with viewport := rows }
  rw [setViewport, shown]
  exact ⟨fun _ _ typed => typed, rfl⟩

/-- Drawing an editor only moves its window. -/
theorem leavesTyped_fitScreen (width height : Nat) (d : Desk) :
    d.LeavesTyped (d.fitScreen width height) where
  typed := by
    rintro purpose _ ⟨editor, prompt, rfl⟩
    rw [fitScreen, prompt]
    exact ⟨_, rfl, rfl⟩
  session := by rw [session_fitScreen]

/-- The prompt asks for a text about the whole review, and what is typed is that text as it is. -/
inductive AsBefore (d : Desk) (typed : String) : Purpose → Prop
  | feedback (same : Text.nonBlank? typed = d.session.feedback) : AsBefore d typed .feedback
  | request (same : Text.nonBlank? typed = d.session.request) : AsBefore d typed .request

theorem AsBefore.leaves {d e : Desk} {purpose : Purpose} {typed : String}
    (before : d.AsBefore typed purpose) (leaves : d.LeavesTyped e) : e.AsBefore typed purpose := by
  cases before with
  | feedback same => exact .feedback (by rw [same, leaves.session])
  | request same => exact .request (by rw [same, leaves.session])

/-- Submitting the text as it is shows the review as it is. -/
theorem AsBefore.submit_eq {d : Desk} {purpose : Purpose} {typed : String}
    (before : d.AsBefore typed purpose) (stamp : Stamp) :
    (d.submit stamp purpose typed).session = (d.session.render d.settings.showHelp).1 ∧
      (d.submit stamp purpose typed).mode = d.mode := by
  cases before with
  | feedback same =>
    have kept : (d.session.setFeedback typed).1 = d.session := by
      rw [Session.setFeedback, same]
    rw [submit, session_commit, kept]
    exact ⟨rfl, (d.kept_commit _).2⟩
  | request same =>
    have kept : (d.session.setRequest typed).1 = d.session := by
      rw [Session.setRequest, same]
    rw [submit, session_commit, kept]
    exact ⟨rfl, (d.kept_commit _).2⟩

end Desk

namespace Loop

def Step.IsKey : Step → Prop
  | .press .. => True
  | _ => False

def Step.Submits : Step → Prop
  | .press _ k _ => k.key = .enter ∧ k.alt = false
  | _ => False

theorem leavesTyped_step (l : Loop) {x : Step} (other : ¬x.IsKey) :
    l.desk.LeavesTyped (l.step x).desk := by
  cases x with
  | press => exact absurd trivial other
  | fetchEnds result =>
    unfold step fetchEnds
    dsimp only
    split <;> exact l.desk.leavesTyped_refl
  | filesChange => exact l.desk.leavesTyped_refl
  | drain => exact l.undisturbed_drain.leavesTyped
  | setViewport rows => exact Desk.leavesTyped_setViewport rows l.desk
  | draw width height => exact Desk.leavesTyped_fitScreen width height l.desk

theorem leavesTyped_steps (l : Loop) {steps : List Step} (others : ∀ x ∈ steps, ¬x.IsKey) :
    l.desk.LeavesTyped (steps.foldl step l).desk := by
  induction steps generalizing l with
  | nil => exact l.desk.leavesTyped_refl
  | cons x steps ih =>
    obtain ⟨first, later⟩ := List.forall_mem_cons.mp others
    exact (l.leavesTyped_step first).trans (ih (l.step x) later)

/-- Both prompts open with the text that there is. -/
theorem typed_of_opens {l : Loop} (normal : l.desk.mode = .normal)
    (set : l.desk.session.SetPlainly) {x : Step} (opens : x.Presses 'f' ∨ x.Presses 'o') :
    (l.step x).desk.session = l.desk.session ∧ (l.step x).desk.settings = l.desk.settings ∧
      ∃ purpose typed, (l.step x).desk.Typed purpose typed ∧
        (l.step x).desk.AsBefore typed purpose := by
  rcases opens with presses | presses
  · rw [step_of_presses normal presses fun _ _ => rfl]
    exact ⟨rfl, rfl, .feedback, _, ⟨_, rfl, rfl⟩, .feedback set.feedback_again⟩
  · rw [step_of_presses normal presses fun _ _ => rfl]
    exact ⟨rfl, rfl, .request, _, ⟨_, rfl, rfl⟩, .request set.request_again⟩

theorem session_of_submits {l : Loop} {purpose : Purpose} {typed : String}
    (open_ : l.desk.Typed purpose typed) (before : l.desk.AsBefore typed purpose) {x : Step}
    (submits : x.Submits) :
    (l.step x).desk.session = (l.desk.session.render l.desk.settings.showHelp).1 ∧
      (l.step x).desk.mode = .normal := by
  cases x with
  | press stamp k world =>
    have answers : l.desk.Answers k purpose typed := ⟨open_, submits.1, submits.2⟩
    have pressed := answers.press_eq stamp
    rw [desk_step_press (by rw [pressed]), pressed]
    have same : ({ l.desk with mode := .normal } : Desk).AsBefore typed purpose := by
      cases before with
      | feedback same => exact .feedback same
      | request same => exact .request same
    exact same.submit_eq stamp
  | _ => exact submits.elim

/-- A prompt for the feedback or the request that is opened and answered untouched leaves both as they
were, whatever comes in while it is open; and of the review it leaves all but what comes in. -/
theorem untouched_prompt {l : Loop} (normal : l.desk.mode = .normal)
    (set : l.desk.session.SetPlainly) {opening answer : Step} {between : List Step}
    (opens : opening.Presses 'f' ∨ opening.Presses 'o') (untouched : ∀ x ∈ between, ¬x.IsKey)
    (submits : answer.Submits) :
    let after := (opening :: between ++ [answer]).foldl step l
    after.desk.session.feedback = l.desk.session.feedback ∧
      after.desk.session.request = l.desk.session.request ∧
      l.desk.Undisturbed after.desk ∧
      (between = [] → l.desk.Fresh → after.desk.session = l.desk.session) := by
  intro after
  obtain ⟨session, settings, purpose, typed, open_, before⟩ := typed_of_opens normal set opens
  have leaves := leavesTyped_steps (l.step opening) untouched
  obtain ⟨shown, closed⟩ :=
    session_of_submits (leaves.typed purpose typed open_) (before.leaves leaves) submits
  have last : after = (between.foldl step (l.step opening)).step answer := by
    simp only [after, List.foldl_cons, List.foldl_append, List.foldl_nil]
  rw [← last] at shown closed
  have undisturbed : l.desk.Undisturbed after.desk := by
    refine ⟨closed.trans normal.symm, ?_⟩
    rw [shown, ← session, leaves.session]
    rfl
  refine ⟨by rw [undisturbed.session], by rw [undisturbed.session], undisturbed, ?_⟩
  rintro rfl fresh
  rw [shown, List.foldl_nil, session, settings, fresh.rendered]

def threeLines : Session :=
  (({} : Session).setFeedback " First \n\n  third\n").1

/-- The feedback stays while the files change and the prompt is drawn. -/
theorem untouched_prompt_threeLines :
    let l := run threeLines ⟨"/repo", .clamp 3, .unstaged⟩ {} []
    let opening := Step.press ⟨0, {}⟩ ⟨.char 'f', false, false⟩ noWorld
    let between := [Step.draw 80 24, .filesChange, .drain, .fetchEnds (.ok ""), .drain]
    let answer := Step.press ⟨0, {}⟩ ⟨.enter, false, false⟩ noWorld
    l.desk.mode = .normal ∧ l.desk.session.SetPlainly ∧ opening.Presses 'f' ∧
      (∀ x ∈ between, ¬x.IsKey) ∧ answer.Submits ∧
      l.desk.session.feedback = some "First \n\n  third" ∧
      ((opening :: between ++ [answer]).foldl step l).desk.session.feedback =
        some "First \n\n  third" := by
  intro l opening between answer
  have normal : l.desk.mode = .normal := rfl
  have set : l.desk.session.SetPlainly :=
    ⟨.inr ⟨{}, " First \n\n  third\n", by decide, rfl⟩, .inl rfl⟩
  have untouched : ∀ x ∈ between, ¬x.IsKey := by simp [between, Step.IsKey]
  have feedback : l.desk.session.feedback = some "First \n\n  third" := by decide +kernel
  have opens : opening.Presses 'f' := rfl
  have submits : answer.Submits := ⟨rfl, rfl⟩
  refine ⟨normal, set, opens, untouched, submits, feedback, ?_⟩
  rw [← feedback]
  exact (untouched_prompt normal set (.inl opens) untouched submits).1

end Loop

end HunkReview
