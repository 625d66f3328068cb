import HunkReview.Desk.Editor
import HunkReview.Desk.Message
import HunkReview.Export.Write
import HunkReview.Settings
import HunkReview.Stream.Layout
import HunkReview.Stream.Render

/-!
# The review desk

A desk is an interactive review: the session, the rows that show it, a cursor on one of them, and
what is open before them. Whatever changes the session shows it anew, so the rows are always those
of the session as it stands.
-/

namespace HunkReview

/-- A stream laid out for reading: its rows, where each begins, and their runs of style. -/
structure View where
  stream : Stream
  starts : List Nat
  rows : List StyledRow
  deriving DecidableEq, Repr

namespace View

def ofStream (s : Stream) : View :=
  ⟨s, s.starts, s.layout⟩

def size (v : View) : Nat :=
  v.stream.rows.length

def lastRow (v : View) : Nat :=
  v.size - 1

def tag? (v : View) (row : Nat) : Option Tag :=
  v.stream.rows[row]?.map (·.tag)

def rowAt (v : View) (offset : Nat) : Nat :=
  lastStartAt v.starts offset

end View

inductive Purpose where
  | comment (anchor : Anchor) (selection : Option Selection)
  | feedback
  | request
  deriving DecidableEq, Repr

def Purpose.title : Purpose → String
  | comment anchor (some s) =>
    " Comment on " ++ anchor.file ++ " lines " ++ s.first.render ++ "-" ++ s.last.render ++ " "
  | comment anchor none =>
    match anchor.line with
    | some l =>
      " Comment on " ++ anchor.file ++ " line " ++
        ((l.newLine.or l.oldLine).map LineNo.render).getD "0" ++ " "
    | none => " Comment on hunk " ++ anchor.hunk.text ++ " "
  | feedback => " Overall feedback "
  | request => " Original request "

inductive Mode where
  | normal
  | help
  | prompt (purpose : Purpose) (editor : Editor)
  | snapshot (title text : String) (scroll : Nat)
  deriving DecidableEq, Repr

structure Desk where
  session : Session
  source : Source
  settings : Settings
  view : View
  cursor : Nat := 0
  scroll : Nat := 0
  viewport : Nat := 20
  /-- The row at which a selection was started. -/
  anchor : Option Nat := none
  mode : Mode := .normal
  message : Option Message := none
  deriving DecidableEq, Repr

namespace Desk

/-- Scroll as little as it takes to show the cursor. -/
def revealCursor (d : Desk) : Desk :=
  let rows := max d.viewport 1
  if d.cursor < d.scroll then { d with scroll := d.cursor }
  else if d.scroll + rows ≤ d.cursor then { d with scroll := d.cursor + 1 - rows }
  else d

/-- Show the session as it stands. The cursor stays in the rows; a selection whose start is no
longer in them is given up. -/
def refreshView (d : Desk) : Desk :=
  let (session, stream) := d.session.render d.settings.showHelp
  let view := View.ofStream stream
  revealCursor
    { d with
      session, view
      cursor := min d.cursor view.lastRow
      anchor := d.anchor.filter (· < view.size) }

def start (session : Session) (source : Source) (settings : Settings) : Desk :=
  refreshView { session, source, settings, view := .ofStream ⟨[]⟩ }

def say (m : Message) (d : Desk) : Desk :=
  { d with message := some m }

/-- Take a changed session, with what was done, and show it. -/
def commit (d : Desk) (result : Session × Notice) : Desk :=
  ({ d with session := result.1 }.say (.notice result.2)).refreshView

def tag? (d : Desk) : Option Tag :=
  d.view.tag? d.cursor

def hunk? (d : Desk) : Option HunkId :=
  d.tag?.bind (·.hunk?)

def setViewport (rows : Nat) (d : Desk) : Desk :=
  revealCursor { d with viewport := rows }

/-! ## Moving -/

def moveTo (row : Nat) (d : Desk) : Desk :=
  revealCursor { d with cursor := min row d.view.lastRow }

def page (d : Desk) : Nat :=
  max d.viewport 1

/-- The rows of the hunks' headers, in order. -/
def hunkRows (d : Desk) : List Nat :=
  d.session.hunks.map fun h => d.view.rowAt h.offset

def nextHunk (d : Desk) : Desk :=
  match d.hunkRows.find? (d.cursor < ·) with
  | some row => d.moveTo row
  | none => d.say .lastHunk

def previousHunk (d : Desk) : Desk :=
  match (d.hunkRows.filter (· < d.cursor)).getLast? with
  | some row => d.moveTo row
  | none => d.say .firstHunk

/-! ## Acting on hunks and lines -/

def onHunk (d : Desk) (act : Session → HunkId → Session × Notice) : Desk :=
  match d.hunk? with
  | some id => d.commit (act d.session id)
  | none => d.say .noHunk

/-- Start a selection at the cursor's line, or give up the one there is. -/
def toggleSelection (d : Desk) : Desk :=
  if d.anchor.isSome then { d with anchor := none }.say .selectionCleared
  else if (d.tag?.bind (·.line?)).isSome then
    { d with anchor := some d.cursor }.say .selectionStarted
  else d.say .selectionNeedsLine

/-- The lines from the selection's start to a line. -/
def selectionTo (d : Desk) (line : Option NumberedLine) : Option Selection := do
  let row ← d.anchor
  let tag ← d.view.tag? row
  Selection.between (← tag.line?) (← line)

def openPrompt (purpose : Purpose) (text : String) (d : Desk) : Desk :=
  { d with mode := .prompt purpose (.ofText text) }

/-- Ask for a comment on what is under the cursor; this uses up the selection. -/
def startComment (d : Desk) : Desk :=
  match d.tag?.bind (·.anchor?) with
  | some place =>
    { d with anchor := none }.openPrompt (.comment place (d.selectionTo place.line)) ""
  | none => d.say .commentNeedsHunk

/-- Store the text of a prompt. A comment ends without blanks, and must not be blank. -/
def submit (stamp : Stamp) (purpose : Purpose) (text : String) (d : Desk) : Desk :=
  match purpose with
  | .comment place selection =>
    match Text.trimEnd text.toList with
    | [] => d.commit (d.session, .commentBlank)
    | cs => d.commit (d.session.addComment (.write stamp place (String.ofList cs) selection))
  | .feedback => d.commit (d.session.setFeedback text)
  | .request => d.commit (d.session.setRequest text)

/-! ## Fetching and exporting -/

/-- Begin a refresh; says whether a fetch is to be started. -/
def beginRefresh (d : Desk) : Desk × Bool :=
  match d.session.tryBeginRefresh with
  | (_, false) => (d, false)
  | (session, true) => ({ d with session }.say .refreshing, true)

def takeDiff (result : Except FetchError String) (d : Desk) : Desk :=
  d.commit (d.session.finishRefresh result)

def oldRevisionName (d : Desk) : String :=
  match d.source.comparison.oldRevision? with
  | none | some "" => "index"
  | some revision => revision

def takeOldFile (file : String) (result : Except FetchError String) (d : Desk) : Desk :=
  match result with
  | .ok text =>
    { d with mode := .snapshot (" " ++ file ++ " @ " ++ d.oldRevisionName ++ " ") text 0 }
  | .error e => d.say (.oldFileFailed e)

def exportReview {m : Type → Type} [Monad m] (write : String → String → m (Except String Unit))
    (now : Instant) (d : Desk) : m Desk := do
  let (report, document) := d.settings.exportPaths d.source.repository
  let notice ← d.session.writeExports write report document now
  pure (d.say (.notice notice))

/-- The directory to watch for changes. A patch cannot change. -/
def watchedRoot? (d : Desk) : Option String :=
  if d.settings.watch && !d.source.comparison.isPatch then some d.source.repository else none

end Desk

end HunkReview
