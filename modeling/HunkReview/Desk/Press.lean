import HunkReview.Desk.Basic

/-!
# Keys at the desk

What each key does in each mode. What a key asks of the world outside is returned as a request;
the desk takes the reply when it comes.
-/

namespace HunkReview

inductive Request where
  | quit
  | fetchDiff
  | fetchOldFile (file : String)
  | writeExports
  deriving DecidableEq, Repr

namespace Desk

def requestRefresh (d : Desk) : Desk × Option Request :=
  match d.beginRefresh with
  | (d, true) => (d, some .fetchDiff)
  | (d, false) => (d, none)

def requestOldFile (d : Desk) : Desk × Option Request :=
  match d.tag?.bind (·.file?) with
  | some file => (d, some (.fetchOldFile file))
  | none => (d.say .noFile, none)

def pressChar (control : Bool) (c : Char) (d : Desk) : Desk × Option Request :=
  match c with
  | 'q' => (d, some .quit)
  | '?' => ({ d with mode := .help }, none)
  | 'j' => (d.moveTo (d.cursor + 1), none)
  | 'k' => (d.moveTo (d.cursor - 1), none)
  | 'g' => (d.moveTo 0, none)
  | 'G' => (d.moveTo d.view.lastRow, none)
  | 'n' => (d.nextHunk, none)
  | 'N' => (d.previousHunk, none)
  | 's' => (d.onHunk Session.stage, none)
  | 'd' => (d.onHunk Session.discard, none)
  | 'u' => (d.onHunk Session.clearStaging, none)
  | '1' => (d.onHunk (·.setVerdict · .approved), none)
  | '2' => (d.onHunk (·.setVerdict · .needsChanges), none)
  | '3' => (d.onHunk (·.setVerdict · .rejected), none)
  | '4' => (d.onHunk (·.setVerdict · .question), none)
  | '0' => (d.onHunk Session.clearVerdict, none)
  | 'c' => if control then (d, some .quit) else (d.startComment, none)
  | 'v' => (d.toggleSelection, none)
  | 'f' => (d.openPrompt .feedback (d.session.feedback.getD ""), none)
  | 'o' => (d.openPrompt .request (d.session.request.getD ""), none)
  | 'r' => d.requestRefresh
  | 'e' => (d, some .writeExports)
  | 'p' => d.requestOldFile
  | _ => (d, none)

def pressNormal (k : KeyPress) (d : Desk) : Desk × Option Request :=
  match k.key with
  | .char c => d.pressChar k.control c
  | .down => (d.moveTo (d.cursor + 1), none)
  | .up => (d.moveTo (d.cursor - 1), none)
  | .pageDown => (d.moveTo (d.cursor + d.page), none)
  | .pageUp => (d.moveTo (d.cursor - d.page), none)
  | .home => (d.moveTo 0, none)
  | .endKey => (d.moveTo d.view.lastRow, none)
  | .escape => ({ d with anchor := none }, none)
  | _ => (d, none)

/-- Enter ends a prompt, and with Alt begins a new line. -/
def pressPrompt (stamp : Stamp) (k : KeyPress) (purpose : Purpose) (editor : Editor) (d : Desk) :
    Desk :=
  match k.key with
  | .escape => { d with mode := .normal }.say .cancelled
  | .enter =>
    if k.alt then { d with mode := .prompt purpose editor.breakLine }
    else { d with mode := .normal }.submit stamp purpose editor.text
  | _ => { d with mode := .prompt purpose (editor.press k) }

def snapshotPage : Nat := 20

def maxSnapshotScroll : Nat := 65535

/-- Where an old file is scrolled to; nothing when the key closes it. -/
def snapshotScroll? (key : Key) (scroll : Nat) : Option Nat :=
  match key with
  | .char 'j' | .down => some (min (scroll + 1) maxSnapshotScroll)
  | .char 'k' | .up => some (scroll - 1)
  | .pageDown => some (min (scroll + snapshotPage) maxSnapshotScroll)
  | .pageUp => some (scroll - snapshotPage)
  | .escape | .char 'q' | .char 'p' => none
  | _ => some scroll

/-- Press a key. The stamp is that of a comment, should the key write one. -/
def press (stamp : Stamp) (k : KeyPress) (d : Desk) : Desk × Option Request :=
  match d.mode with
  | .normal => { d with message := none }.pressNormal k
  | .help => ({ d with mode := .normal }, none)
  | .prompt purpose editor => (d.pressPrompt stamp k purpose editor, none)
  | .snapshot title text scroll =>
    match snapshotScroll? k.key scroll with
    | some scroll => ({ d with mode := .snapshot title text scroll }, none)
    | none => ({ d with mode := .normal }, none)

end Desk

end HunkReview
