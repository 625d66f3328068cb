import HunkReview.Proofs.Desk.Drained
import HunkReview.Proofs.Desk.InView

/-! Where comments come from. A comment is written when a prompt is answered, and the prompt was
opened at what was under the cursor then. What comes in between, be it keys, refreshes or news,
leaves its place and its selection as they were. -/
namespace HunkReview

namespace Session

theorem comments_addComment (s : Session) (c : Comment) :
    (s.addComment c).1.comments = s.comments ∨ (s.addComment c).1.comments = s.comments ++ [c] := by
  unfold addComment
  split
  · exact .inr rfl
  · exact .inl rfl

end Session

def Mode.asked? : Mode → Option (Anchor × Option Selection)
  | .prompt (.comment place selection) _ => some (place, selection)
  | _ => none

theorem Mode.asked?_prompt (purpose : Purpose) (editor edited : Editor) :
    (prompt purpose editor).asked? = (prompt purpose edited).asked? := by
  cases purpose <;> rfl

namespace Desk

/-! ### Turns without comments -/

/-- No comment is written, and none is asked for that was not before. -/
structure Quiet (d e : Desk) : Prop where
  comments : e.session.comments = d.session.comments
  asked : ∀ question, e.mode.asked? = some question → d.mode.asked? = some question

theorem Quiet.trans {d e f : Desk} (first : d.Quiet e) (second : e.Quiet f) : d.Quiet f where
  comments := second.comments.trans first.comments
  asked question open_ := first.asked question (second.asked question open_)

theorem quiet_of_same {d e : Desk} (comments : e.session.comments = d.session.comments)
    (mode : e.mode.asked? = d.mode.asked?) : d.Quiet e :=
  ⟨comments, fun _ open_ => mode ▸ open_⟩

theorem quiet_refl (d : Desk) : d.Quiet d :=
  quiet_of_same rfl rfl

theorem quiet_say (m : Message) (d : Desk) : d.Quiet (d.say m) :=
  quiet_of_same rfl rfl

/-- Something else is opened. -/
theorem quiet_open (d : Desk) {mode : Mode} (other : mode.asked? = none) :
    d.Quiet { d with mode } :=
  ⟨rfl, fun question open_ => by rw [other] at open_; cases open_⟩

theorem quiet_moveTo (row : Nat) (d : Desk) : d.Quiet (d.moveTo row) := by
  obtain ⟨scroll, shown⟩ := revealCursor_eq { d with cursor := min row d.view.lastRow }
  rw [moveTo, shown]
  exact quiet_of_same rfl rfl

theorem quiet_setViewport (rows : Nat) (d : Desk) : d.Quiet (d.setViewport rows) := by
  obtain ⟨scroll, shown⟩ := revealCursor_eq { d with viewport := rows }
  rw [setViewport, shown]
  exact quiet_of_same rfl rfl

theorem kept_commit (d : Desk) (result : Session × Notice) :
    (d.commit result).session.comments = result.1.comments ∧ (d.commit result).mode = d.mode := by
  obtain ⟨cursor, anchor, scroll, shown⟩ := d.commit_eq result
  rw [shown]
  exact ⟨rfl, rfl⟩

theorem quiet_commit (d : Desk) {result : Session × Notice}
    (same : result.1.comments = d.session.comments) : d.Quiet (d.commit result) := by
  obtain ⟨comments, mode⟩ := d.kept_commit result
  exact quiet_of_same (comments.trans same) (by rw [mode])

theorem quiet_onHunk {act : Session → HunkId → Session × Notice}
    (kept : ∀ (s : Session) (id : HunkId), (act s id).1.comments = s.comments) (d : Desk) :
    d.Quiet (d.onHunk act) := by
  unfold onHunk
  split
  · exact d.quiet_commit (kept _ _)
  · exact quiet_say _ d

theorem quiet_toggleSelection (d : Desk) : d.Quiet d.toggleSelection := by
  unfold toggleSelection
  split
  · exact quiet_of_same rfl rfl
  · split <;> exact quiet_of_same rfl rfl

theorem Undisturbed.quiet {d e : Desk} (undisturbed : d.Undisturbed e) : d.Quiet e :=
  quiet_of_same (by rw [undisturbed.session]) (by rw [undisturbed.mode])

theorem quiet_requestRefresh (d : Desk) : d.Quiet d.requestRefresh.1 := by
  have begun := d.undisturbed_beginRefresh.quiet
  unfold requestRefresh
  split <;> simp_all

theorem quiet_fulfil (world : World) (d : Desk) (request : Option Request) :
    d.Quiet (d.fulfil world request) := by
  unfold fulfil
  split
  · generalize Id.run _ = result
    cases result with
    | ok text => exact d.quiet_open rfl
    | error e => exact quiet_say _ d
  · exact quiet_say _ d
  all_goals exact d.quiet_refl

theorem quiet_fitScreen (width height : Nat) (d : Desk) : d.Quiet (d.fitScreen width height) := by
  unfold fitScreen
  split
  · next purpose editor mode =>
    exact quiet_of_same rfl (by rw [mode]; exact Mode.asked?_prompt ..)
  · exact d.quiet_refl

/-! ### Prompts and their answers -/

structure Asks (d : Desk) (place : Anchor) (selection : Option Selection) : Prop where
  normal : d.mode = .normal
  here : d.tag?.bind (·.anchor?) = some place
  selected : selection = d.selectionTo place.line

/-- At most the comment that is asked for is written, and a new one is asked for only at what is
under the cursor. -/
structure Writes (d e : Desk) : Prop where
  comments : e.session.comments = d.session.comments ∨
    ∃ stamp place text selection, d.mode.asked? = some (place, selection) ∧
      e.session.comments = d.session.comments ++ [.write stamp place text selection]
  asked : ∀ place selection, e.mode.asked? = some (place, selection) →
    d.mode.asked? = some (place, selection) ∨ d.Asks place selection

theorem Quiet.writes {d e : Desk} (quiet : d.Quiet e) : d.Writes e where
  comments := .inl quiet.comments
  asked place selection open_ := .inl (quiet.asked (place, selection) open_)

theorem Writes.quiet {d e f : Desk} (writes : d.Writes e) (quiet : e.Quiet f) : d.Writes f where
  comments := by
    rw [quiet.comments]
    exact writes.comments
  asked place selection open_ := writes.asked place selection (quiet.asked _ open_)

theorem writes_startComment {d : Desk} (normal : d.mode = .normal) : d.Writes d.startComment := by
  unfold startComment
  split
  · next place here =>
    refine ⟨.inl rfl, ?_⟩
    rintro _ _ ⟨⟩
    exact .inr ⟨normal, here, rfl⟩
  · exact (quiet_say _ d).writes

theorem Effect.writes {d : Desk} {key : Key} {after : Desk × Option Request}
    (effect : d.Effect key after) (normal : d.mode = .normal) : d.Writes after.1 := by
  cases effect with
  | ignored | requested => exact d.quiet_refl.writes
  | said m => exact (quiet_say m d).writes
  | moved row => exact (quiet_moveTo row d).writes
  | marked c mark => exact (quiet_onHunk (fun s id => (mark.same_set s id).2) d).writes
  | selecting => exact d.quiet_toggleSelection.writes
  | deselected =>
    have kept : d.Quiet { d with anchor := none } := quiet_of_same rfl rfl
    exact kept.writes
  | commenting => exact writes_startComment normal
  | prompted purpose text whole =>
    have other : (Mode.prompt purpose (.ofText text)).asked? = none := by
      rcases whole with rfl | rfl <;> rfl
    exact (d.quiet_open other).writes
  | helped => exact (d.quiet_open rfl).writes
  | refreshing => exact d.quiet_requestRefresh.writes

theorem writes_addComment {d : Desk} {place : Anchor} {selection : Option Selection}
    (asked : d.mode.asked? = some (place, selection)) (stamp : Stamp) (text : String) :
    d.Writes ({ d with mode := .normal }.commit
      (d.session.addComment (.write stamp place text selection))) := by
  obtain ⟨comments, mode⟩ := kept_commit { d with mode := .normal }
    (d.session.addComment (.write stamp place text selection))
  constructor
  · rw [comments]
    exact (d.session.comments_addComment _).imp_right fun added =>
      ⟨stamp, place, text, selection, asked, added⟩
  · intro _ _ open_
    rw [mode] at open_
    cases open_

theorem writes_submit {d : Desk} {purpose : Purpose} {editor : Editor}
    (open_ : d.mode = .prompt purpose editor) (stamp : Stamp) (text : String) :
    d.Writes ({ d with mode := .normal }.submit stamp purpose text) := by
  have closed : d.Quiet { d with mode := .normal } := d.quiet_open rfl
  unfold submit
  split
  · split
    · exact (closed.trans (quiet_commit _ rfl)).writes
    · exact writes_addComment (by rw [open_]; rfl) stamp _
  · exact (closed.trans (quiet_commit _ rfl)).writes
  · exact (closed.trans (quiet_commit _ rfl)).writes

theorem writes_pressPrompt {d : Desk} {purpose : Purpose} {editor : Editor}
    (open_ : d.mode = .prompt purpose editor) (stamp : Stamp) (k : KeyPress) :
    d.Writes (d.pressPrompt stamp k purpose editor) := by
  have edited (edited : Editor) : d.Quiet { d with mode := .prompt purpose edited } :=
    quiet_of_same rfl (by rw [open_]; exact Mode.asked?_prompt ..)
  unfold pressPrompt
  split
  · have closed : d.Quiet { d with mode := .normal } := d.quiet_open rfl
    exact (closed.trans (quiet_say _ _)).writes
  · split
    · exact (edited _).writes
    · exact writes_submit open_ stamp _
  · exact (edited _).writes

theorem writes_press (stamp : Stamp) (k : KeyPress) (d : Desk) : d.Writes (d.press stamp k).1 := by
  unfold press
  split
  · next normal =>
    obtain ⟨comments, asked⟩ :=
      (effect_pressNormal k { d with message := none }).writes normal
    refine ⟨comments, fun place selection open_ => ?_⟩
    exact (asked place selection open_).imp_right fun ⟨normal, here, selected⟩ =>
      ⟨normal, here, selected⟩
  · exact (d.quiet_open rfl).writes
  · next open_ => exact writes_pressPrompt open_ stamp k
  · split <;> exact (d.quiet_open rfl).writes

end Desk

namespace Loop

theorem writes_press (stamp : Stamp) (k : KeyPress) (l : Loop) :
    l.desk.Writes (l.press stamp k).1.desk := by
  have writes := l.desk.writes_press stamp k
  unfold press
  split <;> simp_all

theorem writes_step (l : Loop) (x : Step) : l.desk.Writes (l.step x).desk := by
  cases x with
  | press stamp key world =>
    exact (l.writes_press stamp key).quiet (Desk.quiet_fulfil world _ _)
  | fetchEnds result =>
    unfold step fetchEnds
    dsimp only
    split <;> exact l.desk.quiet_refl.writes
  | filesChange => exact l.desk.quiet_refl.writes
  | drain => exact l.undisturbed_drain.quiet.writes
  | setViewport rows => exact (Desk.quiet_setViewport rows l.desk).writes
  | draw width height => exact (Desk.quiet_fitScreen width height l.desk).writes

/-! ### Runs -/

section

variable (session : Session) (source : Source) (settings : Settings)

/-- In the course of the steps a comment is asked for: those up to some step lead to the desk that
asks, and the next one opens the prompt. -/
def Asked (steps : List Step) (place : Anchor) (selection : Option Selection) : Prop :=
  ∃ before x, before ++ [x] <+: steps ∧
    (run session source settings before).desk.Asks place selection ∧
    (run session source settings (before ++ [x])).desk.mode.asked? = some (place, selection)

/-- All comments that have been added, and the one whose prompt is open, have been asked for. -/
structure FromPrompts (steps : List Step) : Prop where
  comments : ∃ added,
    (run session source settings steps).desk.session.comments = session.comments ++ added ∧
      ∀ c ∈ added, ∃ stamp place text selection, c = .write stamp place text selection ∧
        Asked session source settings steps place selection
  asked : ∀ place selection,
    (run session source settings steps).desk.mode.asked? = some (place, selection) →
      Asked session source settings steps place selection

variable {session : Session} {source : Source} {settings : Settings}

theorem run_concat (steps : List Step) (x : Step) :
    run session source settings (steps ++ [x]) = (run session source settings steps).step x := by
  rw [run, List.foldl_append]
  rfl

theorem Asked.later {steps : List Step} {place : Anchor} {selection : Option Selection}
    (asked : Asked session source settings steps place selection) (x : Step) :
    Asked session source settings (steps ++ [x]) place selection := by
  obtain ⟨before, y, early, asks, open_⟩ := asked
  exact ⟨before, y, early.trans (List.prefix_append steps [x]), asks, open_⟩

theorem FromPrompts.step {steps : List Step} (given : FromPrompts session source settings steps)
    (x : Step) : FromPrompts session source settings (steps ++ [x]) where
  comments := by
    obtain ⟨added, comments, asked⟩ := given.comments
    have later : ∀ c ∈ added, ∃ stamp place text selection, c = .write stamp place text selection ∧
        Asked session source settings (steps ++ [x]) place selection := by
      intro c member
      obtain ⟨stamp, place, text, selection, written, early⟩ := asked c member
      exact ⟨stamp, place, text, selection, written, early.later x⟩
    rw [run_concat]
    rcases (writes_step (run session source settings steps) x).comments with
      same | ⟨stamp, place, text, selection, open_, written⟩
    · exact ⟨added, same.trans comments, later⟩
    · refine ⟨added ++ [.write stamp place text selection], ?_, ?_⟩
      · rw [written, comments, List.append_assoc]
      · refine List.forall_mem_append.mpr ⟨later, List.forall_mem_singleton.mpr ?_⟩
        exact ⟨stamp, place, text, selection, rfl, (given.asked place selection open_).later x⟩
  asked := by
    intro place selection open_
    rw [run_concat] at open_
    rcases (writes_step (run session source settings steps) x).asked place selection open_ with
      before | asks
    · exact (given.asked place selection before).later x
    · exact ⟨steps, x, List.prefix_refl _, asks, by rw [run_concat]; exact open_⟩

end

theorem fromPrompts_run (session : Session) (source : Source) (settings : Settings)
    (steps : List Step) : FromPrompts session source settings steps := by
  induction steps using List.reverseRecOn with
  | nil =>
    obtain ⟨cursor, anchor, scroll, shown⟩ :=
      Desk.refreshView_eq { session, source, settings, view := .ofStream ⟨[]⟩ }
    have opened : (run session source settings []).desk = _ := shown
    constructor
    · rw [opened]
      exact ⟨[], (List.append_nil _).symm, List.forall_mem_nil _⟩
    · intro place selection open_
      rw [opened] at open_
      cases open_
  | append_singleton steps x ih => exact ih.step x

end Loop

end HunkReview
