import HunkReview.Desk.Draw
import HunkReview.Desk.Loop
import HunkReview.Proofs.Review.History
import Mathlib.Logic.Relation

/-! Runs of a desk: keys pressed, fetches that come back, files that change, queues drained, windows
resized and drawn, in any order and number. Whatever happens, the desk changes in few ways only; what
each of these keeps is kept by all runs. -/
namespace HunkReview

/-- What the world outside answers while a key is handled. -/
structure World where
  run : Command → Reply
  write : String → String → Except String Unit
  now : Instant

/-- Do what a key asks for. Fetches of diffs are started by the loop, and quitting ends the run. -/
def Desk.fulfil (world : World) (d : Desk) : Option Request → Desk
  | some (.fetchOldFile file) =>
    d.takeOldFile file (Id.run (d.source.fetchOldFile (fun c => pure (world.run c)) file))
  | some .writeExports =>
    Id.run (d.exportReview (fun path text => pure (world.write path text)) world.now)
  | some .quit | some .fetchDiff | none => d

namespace Loop

inductive Step where
  | press (stamp : Stamp) (key : KeyPress) (world : World)
  | fetchEnds (result : Except FetchError String)
  | filesChange
  | drain
  | setViewport (rows : Nat)
  | draw (width height : Nat)

def step (l : Loop) : Step → Loop
  | .press stamp key world =>
    let (next, request) := l.press stamp key
    { next with desk := next.desk.fulfil world request }
  | .fetchEnds result => l.fetchEnds result
  | .filesChange => l.filesChange
  | .drain => l.drain
  | .setViewport rows => { l with desk := l.desk.setViewport rows }
  | .draw width height => { l with desk := l.desk.fitScreen width height }

def run (session : Session) (source : Source) (settings : Settings) (steps : List Step) : Loop :=
  steps.foldl step { desk := .start session source settings }

/-- The fetch that an opened desk begins with is one that changed files could have started. -/
theorem opened_eq_run (session : Session) (source : Source) (settings : Settings) :
    opened (.start session source settings) = run session source settings [.filesChange, .drain] :=
  rfl

end Loop

namespace Desk

/-- All that can happen to a desk at a time. -/
inductive Turn (d : Desk) : Desk → Prop
  | set (mode : Mode) (message : Option Message) : Turn d { d with mode, message }
  | moved (row : Nat) : Turn d (d.moveTo row)
  | deselected : Turn d { d with anchor := none }
  | selected : Turn d { d with anchor := some d.cursor }
  | resized (rows : Nat) : Turn d (d.setViewport rows)
  | guarded : Turn d { d with session := { d.session with refreshing := true } }
  | acted (t : Session) (change : d.session.Change t) : Turn d { d with session := t }.refreshView

abbrev Turns : Desk → Desk → Prop :=
  Relation.ReflTransGen Turn

theorem turns_set (d : Desk) (mode : Mode) (message : Option Message) :
    d.Turns { d with mode, message } :=
  .single (.set mode message)

theorem turns_say (m : Message) (d : Desk) : d.Turns (d.say m) :=
  d.turns_set d.mode (some m)

theorem turns_moveTo (row : Nat) (d : Desk) : d.Turns (d.moveTo row) :=
  .single (.moved row)

theorem turns_nextHunk (d : Desk) : d.Turns d.nextHunk := by
  unfold nextHunk
  split
  · exact d.turns_moveTo _
  · exact d.turns_say _

theorem turns_previousHunk (d : Desk) : d.Turns d.previousHunk := by
  unfold previousHunk
  split
  · exact d.turns_moveTo _
  · exact d.turns_say _

theorem turns_commit (d : Desk) {result : Session × Notice} (change : d.session.Change result.1) :
    d.Turns (d.commit result) :=
  (d.turns_say (.notice result.2)).tail (.acted result.1 change)

theorem turns_onHunk (act : Session → HunkId → Session × Notice)
    (change : ∀ (s : Session) (id : HunkId), s.Change (act s id).1) (d : Desk) :
    d.Turns (d.onHunk act) := by
  unfold onHunk
  split
  · exact d.turns_commit (change _ _)
  · exact d.turns_say _

theorem turns_toggleSelection (d : Desk) : d.Turns d.toggleSelection := by
  unfold toggleSelection
  split
  · exact (Relation.ReflTransGen.single .deselected).trans (turns_say _ _)
  · split
    · exact (Relation.ReflTransGen.single .selected).trans (turns_say _ _)
    · exact d.turns_say _

theorem turns_openPrompt (purpose : Purpose) (text : String) (d : Desk) :
    d.Turns (d.openPrompt purpose text) :=
  d.turns_set _ d.message

theorem turns_startComment (d : Desk) : d.Turns d.startComment := by
  unfold startComment
  split
  · exact (Relation.ReflTransGen.single .deselected).trans (turns_openPrompt _ _ _)
  · exact d.turns_say _

theorem turns_submit (stamp : Stamp) (purpose : Purpose) (text : String) (d : Desk) :
    d.Turns (d.submit stamp purpose text) := by
  unfold submit
  split
  · split
    · exact d.turns_commit .nothing
    · exact d.turns_commit (d.session.change_addComment _)
  · exact d.turns_commit (.answered _)
  · exact d.turns_commit (.asked _)

theorem turns_beginRefresh (d : Desk) : d.Turns d.beginRefresh.1 := by
  unfold beginRefresh Session.tryBeginRefresh
  cases d.session.refreshing with
  | true => exact .refl
  | false => exact (Relation.ReflTransGen.single .guarded).trans (turns_say _ _)

theorem turns_requestRefresh (d : Desk) : d.Turns d.requestRefresh.1 := by
  have turns := d.turns_beginRefresh
  unfold requestRefresh
  split <;> simp_all

theorem turns_requestOldFile (d : Desk) : d.Turns d.requestOldFile.1 := by
  unfold requestOldFile
  split
  · exact .refl
  · exact d.turns_say _

theorem turns_pressChar (control : Bool) (c : Char) (d : Desk) :
    d.Turns (d.pressChar control c).1 := by
  unfold pressChar
  split
  · exact .refl
  · exact d.turns_set .help d.message
  · exact turns_moveTo (d.cursor + 1) d
  · exact turns_moveTo (d.cursor - 1) d
  · exact turns_moveTo 0 d
  · exact turns_moveTo d.view.lastRow d
  · exact d.turns_nextHunk
  · exact d.turns_previousHunk
  · exact turns_onHunk Session.stage (fun s id => s.change_setStaging id _) d
  · exact turns_onHunk Session.discard (fun s id => s.change_setStaging id _) d
  · exact turns_onHunk Session.clearStaging (fun s id => s.change_setStaging id _) d
  · exact turns_onHunk (·.setVerdict · .approved) (fun s id => s.change_setVerdict id _) d
  · exact turns_onHunk (·.setVerdict · .needsChanges) (fun s id => s.change_setVerdict id _) d
  · exact turns_onHunk (·.setVerdict · .rejected) (fun s id => s.change_setVerdict id _) d
  · exact turns_onHunk (·.setVerdict · .question) (fun s id => s.change_setVerdict id _) d
  · exact turns_onHunk Session.clearVerdict (fun s id => s.change_setVerdict id _) d
  · cases control with
    | true => exact .refl
    | false => exact d.turns_startComment
  · exact d.turns_toggleSelection
  · exact turns_openPrompt .feedback _ d
  · exact turns_openPrompt .request _ d
  · exact d.turns_requestRefresh
  · exact .refl
  · exact d.turns_requestOldFile
  · exact .refl

theorem turns_pressNormal (k : KeyPress) (d : Desk) : d.Turns (d.pressNormal k).1 := by
  obtain ⟨key, control, alt⟩ := k
  cases key with
  | char c => exact turns_pressChar control c d
  | down => exact turns_moveTo (d.cursor + 1) d
  | up => exact turns_moveTo (d.cursor - 1) d
  | pageDown => exact turns_moveTo (d.cursor + d.page) d
  | pageUp => exact turns_moveTo (d.cursor - d.page) d
  | home => exact turns_moveTo 0 d
  | endKey => exact turns_moveTo d.view.lastRow d
  | escape => exact .single .deselected
  | _ => exact .refl

theorem turns_pressPrompt (stamp : Stamp) (k : KeyPress) (purpose : Purpose) (editor : Editor)
    (d : Desk) : d.Turns (d.pressPrompt stamp k purpose editor) := by
  unfold pressPrompt
  split
  · exact d.turns_set .normal (some .cancelled)
  · split
    · exact d.turns_set (.prompt purpose editor.breakLine) d.message
    · exact (d.turns_set .normal d.message).trans (turns_submit stamp purpose editor.text _)
  · exact d.turns_set (.prompt purpose (editor.press k)) d.message

theorem turns_press (stamp : Stamp) (k : KeyPress) (d : Desk) : d.Turns (d.press stamp k).1 := by
  unfold press
  split
  · exact (d.turns_set d.mode none).trans (turns_pressNormal k _)
  · exact d.turns_set .normal d.message
  · exact turns_pressPrompt stamp k _ _ d
  · split
    · exact d.turns_set (.snapshot _ _ _) d.message
    · exact d.turns_set .normal d.message

theorem turns_takeDiff (result : Except FetchError String) (d : Desk) : d.Turns (d.takeDiff result) :=
  d.turns_commit (d.session.change_finishRefresh result)

theorem turns_takeOldFile (file : String) (result : Except FetchError String) (d : Desk) :
    d.Turns (d.takeOldFile file result) := by
  cases result with
  | ok text => exact d.turns_set (.snapshot _ text 0) d.message
  | error e => exact turns_say _ d

theorem turns_fulfil (world : World) (d : Desk) (request : Option Request) :
    d.Turns (d.fulfil world request) := by
  unfold fulfil
  split
  · exact turns_takeOldFile _ _ d
  · exact turns_say _ d
  all_goals exact .refl

theorem turns_fitScreen (width height : Nat) (d : Desk) : d.Turns (d.fitScreen width height) := by
  unfold fitScreen
  split
  · exact d.turns_set (.prompt _ _) d.message
  · exact .refl

end Desk

namespace Loop

theorem turns_press (stamp : Stamp) (k : KeyPress) (l : Loop) :
    l.desk.Turns (l.press stamp k).1.desk := by
  have turns := Desk.turns_press stamp k l.desk
  unfold press
  split <;> simp_all

theorem turns_take (l : Loop) (e : Event) : l.desk.Turns (l.take e).desk := by
  cases e with
  | diffFetched result => exact l.desk.turns_takeDiff result
  | filesChanged =>
    have turns := l.desk.turns_beginRefresh
    unfold take
    dsimp only
    split <;> simp_all

theorem turns_foldl_take (l : Loop) (queue : List Event) :
    l.desk.Turns (queue.foldl take l).desk := by
  induction queue generalizing l with
  | nil => exact .refl
  | cons e queue ih => exact (l.turns_take e).trans (ih (l.take e))

theorem turns_step (l : Loop) (x : Step) : l.desk.Turns (l.step x).desk := by
  cases x with
  | press stamp key world =>
    exact (l.turns_press stamp key).trans (Desk.turns_fulfil world _ _)
  | fetchEnds result =>
    unfold step fetchEnds
    dsimp only
    split <;> exact .refl
  | filesChange => exact .refl
  | drain => exact turns_foldl_take { l with queue := [] } l.queue
  | setViewport rows => exact .single (.resized rows)
  | draw width height => exact Desk.turns_fitScreen width height l.desk

theorem turns_run (session : Session) (source : Source) (settings : Settings) (steps : List Step) :
    (Desk.start session source settings).Turns (run session source settings steps).desk := by
  unfold run
  induction steps using List.reverseRecOn with
  | nil => exact .refl
  | append_singleton steps x ih =>
    rw [List.foldl_append]
    exact ih.trans (turns_step _ x)

/-- What holds of an opened desk and outlives every turn holds of all runs. -/
theorem run_induction {holds : Desk → Prop} {session : Session} {source : Source}
    {settings : Settings} (opened : holds (.start session source settings))
    (kept : ∀ d e, d.Turn e → holds d → holds e) (steps : List Step) :
    holds (run session source settings steps).desk := by
  -- the induction is on the turns, which are more than the steps
  have turns := turns_run session source settings steps
  generalize (run session source settings steps).desk = last at turns ⊢
  induction turns with
  | refl => exact opened
  | tail _ turn ih => exact kept _ _ turn ih

end Loop

end HunkReview
