import HunkReview.Proofs.Desk.Drained
import HunkReview.Proofs.Desk.InView
import HunkReview.Proofs.Review.Target
import HunkReview.Proofs.Text.OneLine

/-! What keys do to a review. In normal mode a few keys mark the hunk under the cursor; in a prompt one
key adds a comment or sets a text. All other keys leave the review as it is, and so do the diffs that
come in, but for the hunks. -/
namespace HunkReview

namespace Text

def Filled (text : String) : Prop :=
  ∃ c ∈ text.toList, isBlank c = false

/-- The text is not blank, and it does not end in a blank. -/
structure Tidy (text : String) : Prop where
  filled : Filled text
  ends : ∀ c ∈ text.toList.getLast?, isBlank c = false

theorem filled_iff (text : String) : Filled text ↔ trimEnd text.toList ≠ [] := by
  simp [Filled, trimEnd, dropEndWhile_eq_nil_iff]

theorem Filled.tidy_trimEnd {text : String} (filled : Filled text) :
    Tidy (String.ofList (trimEnd text.toList)) := by
  have ends := dropEndWhile_getLast? isBlank text.toList
  have some := (filled_iff text).mp filled
  have last := List.getLast?_eq_some_getLast some
  constructor
  · rw [Filled, String.toList_ofList]
    exact ⟨_, List.getLast_mem some, ends _ last⟩
  · rw [String.toList_ofList]
    exact ends

end Text

namespace Session

/-- No hunk is marked in another way, neither in the diff nor in what is remembered. -/
structure SameMarks (s t : Session) : Prop where
  stagings : t.stagings = s.stagings
  verdicts : t.verdicts = s.verdicts
  hunks : t.hunks.map ReviewHunk.marks = s.hunks.map ReviewHunk.marks

theorem SameMarks.render {s t : Session} (same : s.SameMarks t) (showHelp : Bool) :
    s.SameMarks (t.render showHelp).1 :=
  ⟨same.stagings, same.verdicts, (map_placeHunks _ (fun _ _ => rfl) t.hunks _).trans same.hunks⟩

theorem addComment_of_unknown {s : Session} {c : Comment} (unknown : ¬(s.hunk? c.hunk).isSome) :
    (s.addComment c).1 = s := by
  rw [addComment, if_neg unknown]

end Session

namespace Mark

def Changes (s : Session) (id : HunkId) (t : Session) : Mark → Prop
  | staging mark => s.Restaged id mark t
  | verdict mark => s.Rejudged id mark t

theorem changes_set (mark : Mark) {s : Session} {id : HunkId} (known : (s.hunk? id).isSome) :
    mark.Changes s id (mark.set s id).1 := by
  cases mark with
  | staging mark => exact (s.restaged_setStaging mark known).2
  | verdict mark => exact (s.rejudged_setVerdict mark known).2

theorem Changes.rest {mark : Mark} {s : Session} {id : HunkId} {t : Session}
    (changes : mark.Changes s id t) :
    t = { s with hunks := t.hunks, stagings := t.stagings, verdicts := t.verdicts } := by
  cases mark with
  | staging mark => rw [Session.Restaged.rest changes]
  | verdict mark => rw [Session.Rejudged.rest changes]

theorem mem_of_ofKey? {c : Char} {mark : Mark} (key : ofKey? c = some mark) :
    c ∈ ['s', 'd', 'u', '0', '1', '2', '3', '4'] := by
  unfold ofKey? at key
  split at key
  case h_9 => cases key
  all_goals simp

end Mark

namespace Desk

/-! ### Keys that are for the review -/

structure SetsMark (d : Desk) (k : KeyPress) (mark : Mark) (id : HunkId) : Prop where
  normal : d.mode = .normal
  key : ∃ c ∈ ['s', 'd', 'u', '0', '1', '2', '3', '4'], k.key = .char c ∧ Mark.ofKey? c = some mark
  under : d.hunk? = some id

/-- The key answers the prompt with what has been typed: Enter without Alt. -/
structure Answers (d : Desk) (k : KeyPress) (purpose : Purpose) (typed : String) : Prop where
  prompt : ∃ editor, d.mode = .prompt purpose editor ∧ editor.text = typed
  enter : k.key = .enter
  plain : k.alt = false

variable {d : Desk} {stamp : Stamp} {k : KeyPress}

/-! ### What these keys do -/

theorem SetsMark.session_press {mark : Mark} {id : HunkId} (sets : d.SetsMark k mark id)
    (stamp : Stamp) :
    (d.press stamp k).1.session = ((mark.set d.session id).1.render d.settings.showHelp).1 := by
  obtain ⟨normal, ⟨c, -, char, key⟩, under⟩ := sets
  exact session_press_of_mark under normal char key stamp

theorem Answers.press_eq {purpose : Purpose} {typed : String} (answers : d.Answers k purpose typed)
    (stamp : Stamp) : d.press stamp k = ({ d with mode := .normal }.submit stamp purpose typed, none) := by
  obtain ⟨⟨editor, prompt, rfl⟩, enter, plain⟩ := answers
  simp [press, prompt, pressPrompt, enter, plain]

theorem Answers.session_feedback {typed : String} (answers : d.Answers k .feedback typed)
    (stamp : Stamp) :
    (d.press stamp k).1.session =
      (({ d.session with feedback := Text.nonBlank? typed } : Session).render
        d.settings.showHelp).1 := by
  rw [answers.press_eq]
  exact session_commit _ _

theorem Answers.session_request {typed : String} (answers : d.Answers k .request typed)
    (stamp : Stamp) :
    (d.press stamp k).1.session =
      (({ d.session with request := Text.nonBlank? typed } : Session).render
        d.settings.showHelp).1 := by
  rw [answers.press_eq]
  exact session_commit _ _

section

variable {place : Anchor} {selection : Option Selection} {typed : String}

/-- A comment is added when it is not blank and its hunk is still there. -/
theorem Answers.session_comment (answers : d.Answers k (.comment place selection) typed)
    (known : ∃ h ∈ d.session.hunks, h.id = place.hunk) (filled : Text.Filled typed) (stamp : Stamp) :
    (d.press stamp k).1.session =
      (({ d.session with
          comments := d.session.comments ++
            [.write stamp place (String.ofList (Text.trimEnd typed.toList)) selection] } :
        Session).render d.settings.showHelp).1 := by
  have present := (d.session.isSome_hunk?_iff place.hunk).mpr known
  rw [answers.press_eq, submit]
  split
  · next blank => exact absurd blank ((Text.filled_iff typed).mp filled)
  · rw [session_commit, (d.session.appended_addComment present).2]

theorem Answers.session_dropped (answers : d.Answers k (.comment place selection) typed)
    (dropped : ¬((∃ h ∈ d.session.hunks, h.id = place.hunk) ∧ Text.Filled typed)) (stamp : Stamp) :
    (d.press stamp k).1.session = (d.session.render d.settings.showHelp).1 := by
  rw [answers.press_eq, submit]
  split
  · rw [session_commit]
  · next some =>
    have unknown : ¬(d.session.hunk? place.hunk).isSome := fun present =>
      dropped ⟨(d.session.isSome_hunk?_iff place.hunk).mp present, (Text.filled_iff typed).mpr some⟩
    rw [session_commit, Session.addComment_of_unknown unknown]

end

/-! ### What the other keys do not -/

/-- In normal mode a key marks the hunk under the cursor, or is not for the review. -/
theorem Effect.session {key : Key} {after : Desk × Option Request} (effect : d.Effect key after) :
    (∃ refreshing, after.1.session = { d.session with refreshing }) ∨
      ∃ c mark, key = .char c ∧ Mark.ofKey? c = some mark ∧ after.1 = d.onHunk mark.set := by
  cases effect with
  | marked c mark char marks => exact .inr ⟨c, mark, char, marks, rfl⟩
  | refreshing => exact .inl ⟨true, d.session_requestRefresh⟩
  | _ => exact .inl ⟨d.session.refreshing, by simp⟩

/-- A key that sets no mark and answers no prompt is not for the review. -/
theorem session_press_of_other (unmarked : ∀ mark id, ¬d.SetsMark k mark id)
    (unanswered : ∀ purpose typed, ¬d.Answers k purpose typed) (stamp : Stamp) :
    ∃ refreshing, (d.press stamp k).1.session = { d.session with refreshing } := by
  unfold press
  split
  · next normal =>
    rcases (effect_pressNormal k { d with message := none }).session with
      kept | ⟨c, mark, char, key, acted⟩
    · exact kept
    · -- a key that sets marks has no hunk to set one on
      cases under : ({ d with message := none } : Desk).hunk? with
      | some id =>
        exact absurd ⟨normal, ⟨c, Mark.mem_of_ofKey? key, char, key⟩, under⟩ (unmarked mark id)
      | none =>
        rw [acted, onHunk, under]
        exact ⟨d.session.refreshing, rfl⟩
  · exact ⟨d.session.refreshing, rfl⟩
  · next purpose editor prompt =>
    unfold pressPrompt
    split
    · exact ⟨d.session.refreshing, rfl⟩
    · next enter =>
      split
      · exact ⟨d.session.refreshing, rfl⟩
      · next plain =>
        have answers : d.Answers k purpose editor.text :=
          ⟨⟨editor, prompt, rfl⟩, enter, eq_false_of_ne_true plain⟩
        exact absurd answers (unanswered purpose editor.text)
    · exact ⟨d.session.refreshing, rfl⟩
  · split <;> exact ⟨d.session.refreshing, rfl⟩

/-! ### All keys -/

/-- All that a key makes of the session of a desk, before it is shown anew. -/
inductive Revised (stamp : Stamp) (k : KeyPress) (d : Desk) : Session → Prop
  | kept (refreshing : Bool) : Revised stamp k d { d.session with refreshing }
  | marked {mark : Mark} {id : HunkId} {t : Session} (sets : d.SetsMark k mark id)
      (changes : mark.Changes d.session id t) : Revised stamp k d t
  | commented {place : Anchor} {selection : Option Selection} {typed : String}
      (answers : d.Answers k (.comment place selection) typed)
      (known : ∃ h ∈ d.session.hunks, h.id = place.hunk) (filled : Text.Filled typed) :
    Revised stamp k d
      { d.session with
        comments := d.session.comments ++
          [.write stamp place (String.ofList (Text.trimEnd typed.toList)) selection] }
  | answered {typed : String} (answers : d.Answers k .feedback typed) :
    Revised stamp k d { d.session with feedback := Text.nonBlank? typed }
  | asked {typed : String} (answers : d.Answers k .request typed) :
    Revised stamp k d { d.session with request := Text.nonBlank? typed }

/-- What is shown anew after a key is a session that the key makes. -/
theorem Fresh.revised_press (fresh : d.Fresh) (stamp : Stamp) (k : KeyPress) :
    ∃ t, d.Revised stamp k t ∧ (d.press stamp k).1.session = (t.render d.settings.showHelp).1 := by
  by_cases marks : ∃ mark id, d.SetsMark k mark id
  · obtain ⟨mark, id, sets⟩ := marks
    have changes := mark.changes_set (fresh.known sets.under)
    exact ⟨_, .marked sets changes, sets.session_press stamp⟩
  by_cases answered : ∃ purpose typed, d.Answers k purpose typed
  · obtain ⟨purpose, typed, answers⟩ := answered
    cases purpose with
    | comment place selection =>
      -- a comment that is dropped leaves the session as it is, but it is shown anew all the same
      by_cases writes : (∃ h ∈ d.session.hunks, h.id = place.hunk) ∧ Text.Filled typed
      · obtain ⟨known, filled⟩ := writes
        exact ⟨_, .commented answers known filled, answers.session_comment known filled stamp⟩
      · exact ⟨_, .kept d.session.refreshing, answers.session_dropped writes stamp⟩
    | feedback => exact ⟨_, .answered answers, answers.session_feedback stamp⟩
    | request => exact ⟨_, .asked answers, answers.session_request stamp⟩
  · have unmarked : ∀ mark id, ¬d.SetsMark k mark id := fun mark id sets => marks ⟨mark, id, sets⟩
    have unanswered : ∀ purpose typed, ¬d.Answers k purpose typed :=
      fun purpose typed answers => answered ⟨purpose, typed, answers⟩
    obtain ⟨refreshing, kept⟩ := session_press_of_other unmarked unanswered stamp
    refine ⟨_, .kept refreshing, ?_⟩
    rw [kept, Session.render_guarded, fresh.rendered]

namespace Revised

variable {t : Session}

theorem marks (revised : d.Revised stamp k t) :
    d.session.SameMarks t ∨ ∃ mark id, d.SetsMark k mark id := by
  cases revised with
  | marked sets changes => exact .inr ⟨_, _, sets⟩
  | _ => exact .inl ⟨rfl, rfl, rfl⟩

theorem comments (revised : d.Revised stamp k t) :
    t.comments = d.session.comments ∨
      ∃ place selection typed, d.Answers k (.comment place selection) typed ∧
        (∃ h ∈ d.session.hunks, h.id = place.hunk) ∧ Text.Filled typed := by
  cases revised with
  | marked sets changes => exact .inl (by rw [changes.rest])
  | commented answers known filled => exact .inr ⟨_, _, _, answers, known, filled⟩
  | _ => exact .inl rfl

theorem feedback (revised : d.Revised stamp k t) :
    t.feedback = d.session.feedback ∨ ∃ typed, d.Answers k .feedback typed := by
  cases revised with
  | marked sets changes => exact .inl (by rw [changes.rest])
  | answered answers => exact .inr ⟨_, answers⟩
  | _ => exact .inl rfl

theorem request (revised : d.Revised stamp k t) :
    t.request = d.session.request ∨ ∃ typed, d.Answers k .request typed := by
  cases revised with
  | marked sets changes => exact .inl (by rw [changes.rest])
  | asked answers => exact .inr ⟨_, answers⟩
  | _ => exact .inl rfl

end Revised

/-- A key changes of the review what it is for, and nothing else: first what the keys do, then that no
other key does it. -/
structure Revises (stamp : Stamp) (k : KeyPress) (d : Desk) (after : Session) : Prop where
  marked : ∀ mark id, d.SetsMark k mark id →
    ∃ t, mark.Changes d.session id t ∧ after = (t.render d.settings.showHelp).1
  commented : ∀ place selection typed, d.Answers k (.comment place selection) typed →
    (∃ h ∈ d.session.hunks, h.id = place.hunk) → Text.Filled typed →
      ∃ text, text = String.ofList (Text.trimEnd typed.toList) ∧ Text.Tidy text ∧
        after.comments = d.session.comments ++ [.write stamp place text selection]
  answered : ∀ typed, d.Answers k .feedback typed → after.feedback = Text.nonBlank? typed
  asked : ∀ typed, d.Answers k .request typed → after.request = Text.nonBlank? typed
  marks : d.session.SameMarks after ∨ ∃ mark id, d.SetsMark k mark id
  comments : after.comments = d.session.comments ∨
    ∃ place selection typed, d.Answers k (.comment place selection) typed ∧
      (∃ h ∈ d.session.hunks, h.id = place.hunk) ∧ Text.Filled typed
  feedback : after.feedback = d.session.feedback ∨ ∃ typed, d.Answers k .feedback typed
  request : after.request = d.session.request ∨ ∃ typed, d.Answers k .request typed
  others : (∀ mark id, ¬d.SetsMark k mark id) → (∀ purpose typed, ¬d.Answers k purpose typed) →
    after = { d.session with refreshing := after.refreshing }

theorem Fresh.revises_press (fresh : d.Fresh) (stamp : Stamp) (k : KeyPress) :
    d.Revises stamp k (d.press stamp k).1.session := by
  obtain ⟨t, revised, shown⟩ := fresh.revised_press stamp k
  constructor
  case marked =>
    intro mark id sets
    exact ⟨_, mark.changes_set (fresh.known sets.under), sets.session_press stamp⟩
  case commented =>
    intro place selection typed answers known filled
    refine ⟨_, rfl, filled.tidy_trimEnd, ?_⟩
    rw [answers.session_comment known filled stamp]
    rfl
  case answered =>
    intro typed answers
    rw [answers.session_feedback stamp]
    rfl
  case asked =>
    intro typed answers
    rw [answers.session_request stamp]
    rfl
  case marks =>
    rw [shown]
    exact revised.marks.imp_left fun same => same.render _
  case comments =>
    rw [shown]
    exact revised.comments
  case feedback =>
    rw [shown]
    exact revised.feedback
  case request =>
    rw [shown]
    exact revised.request
  case others =>
    intro unmarked unanswered
    obtain ⟨refreshing, kept⟩ := session_press_of_other unmarked unanswered stamp
    rw [kept]

theorem normal_of_quit (quits : (d.press stamp k).2 = some .quit) : d.mode = .normal := by
  unfold press at quits
  split at quits
  · assumption
  · cases quits
  · cases quits
  · split at quits <;> cases quits

end Desk

namespace Loop

theorem normal_of_quit {l : Loop} {stamp : Stamp} {k : KeyPress}
    (quits : (l.press stamp k).2 = some .quit) : l.desk.mode = .normal := by
  unfold press at quits
  split at quits
  · cases quits
  · next pressed =>
    apply Desk.normal_of_quit
    rw [pressed]
    exact quits

/-- Keys change the review only where they should, and quit in normal mode only; what has come in
meanwhile leaves the review alone when it is taken. -/
structure InPlace (l : Loop) : Prop where
  keys : ∀ stamp k world, l.desk.Revises stamp k (l.step (.press stamp k world)).desk.session
  quits : ∀ stamp k, (l.press stamp k).2 = some .quit → l.desk.mode = .normal
  drained : l.desk.Undisturbed (l.step .drain).desk

/-- In all runs every key is in its place. -/
theorem inPlace_run (session : Session) (source : Source) (settings : Settings)
    (steps : List Step) : (run session source settings steps).InPlace where
  keys stamp k world := by
    rw [step_press, Desk.session_fulfil]
    exact (fresh_run session source settings steps).revises_press stamp k
  quits stamp k quits := normal_of_quit quits
  drained := (run session source settings steps).undisturbed_drain

/-- The key that stages a hunk is text in a prompt. -/
example :
    let press (key : Key) : Step := .press ⟨0, {}⟩ ⟨key, false, false⟩ noWorld
    let steps := ['n', 'c', 's', ' '].map (press <| .char ·) ++ [press .enter]
    let s := (run (oneChange .pending .pending) ⟨"/repo", .clamp 3, .unstaged⟩ {} steps).desk.session
    s.comments.map (·.text) = ["why?", "s"] ∧ s.hunks.map ReviewHunk.marks = [(.pending, .pending)] := by
  decide +kernel

end Loop

end HunkReview
