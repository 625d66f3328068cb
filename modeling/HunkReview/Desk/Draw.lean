import HunkReview.Desk.Basic
import HunkReview.Screen.Picture

/-!
# Drawing the desk

The header, the rows and the status line fill the screen from top to bottom, and what is open
stands in a box before them.
-/

namespace HunkReview

open Screen

def verdictColor : Verdict → Color
  | .approved => .green
  | .needsChanges => .yellow
  | .rejected => .red
  | .question => .blue
  | .pending => .reset

def Style.look : Style → Look
  | help => { foreground := some .darkGray, effects := { italic := true } }
  | fileBanner => { foreground := some .cyan, effects := { bold := true } }
  | hunkHeader => { foreground := some .magenta }
  | added => { foreground := some .green }
  | removed => { foreground := some .red }
  | context => {}
  | addedInline =>
    { foreground := some .black, background := some .green, effects := { bold := true } }
  | removedInline =>
    { foreground := some .black, background := some .red, effects := { bold := true } }
  | staged => { foreground := some .green, effects := { dim := true } }
  | discarded => { foreground := some .darkGray, effects := { crossedOut := true } }
  | comment => { foreground := some .yellow }
  | border => { foreground := some .darkGray }
  | verdict v => { foreground := some (verdictColor v), effects := { bold := true } }

def cursorLook : Look := { effects := { reversed := true } }

def selectionLook : Look := { background := some .darkGray }

/-! ## The text editor -/

namespace Editor

def caretLook : Look := { effects := { reversed := true } }

def caretLineLook : Look := { effects := { underlined := true } }

/-- Tabs as spaces up to the next tab stop, when the text begins at a column; and the column at
which it ends. -/
def expandTabs : Nat → List Char → List Char × Nat
  | column, [] => ([], column)
  | column, c :: cs =>
    if c = '\t' then
      let n := tabSize - column % tabSize
      let (rest, stop) := expandTabs (column + n) cs
      (List.replicate n ' ' ++ rest, stop)
    else
      let (rest, stop) := expandTabs (column + charColumns c) cs
      (c :: rest, stop)

/-- The line with the caret, which stands on a character or after the last one. -/
def caretLine (line : List Char) (column : Nat) : List Stretch :=
  let (before, start) := expandTabs 0 (line.take column)
  match line.drop column with
  | [] => [⟨before, caretLineLook⟩, ⟨[' '], caretLook⟩]
  | c :: after =>
    let (under, stop) := expandTabs start [c]
    [⟨before, caretLineLook⟩, ⟨under, caretLook⟩, ⟨(expandTabs stop after).1, caretLineLook⟩]

def shownLines (e : Editor) : List (List Symbol) :=
  let lines := e.lines.mapIdx fun row line =>
    let stretches :=
      if row = e.caret.row then caretLine line e.caret.column else [⟨(expandTabs 0 line).1, {}⟩]
    stretches.flatMap Stretch.symbols
  (lines.drop e.window.top).take e.window.height

end Editor

/-! ## The parts of the screen -/

namespace Desk

/-- A share of a length, to the nearest whole. -/
def percent (share length : Nat) : Nat :=
  (share * length + 50) / 100

/-- The middle of a length: where a share of it starts, and its size. -/
def middle (share length : Nat) : Nat × Nat :=
  let before := (100 - share) / 2
  let start := percent before length
  (start, percent (before + share) length - start)

def popup (across down width height : Nat) : Area :=
  let (left, columns) := middle across width
  let (top, rows) := middle down height
  ⟨left, top, columns, rows⟩

def promptArea (width height : Nat) : Area :=
  popup 70 40 width height

def header (d : Desk) : String :=
  " " ++ d.session.label.getD "no source" ++ " | " ++ toString d.session.hunks.length ++
    " hunks in " ++ toString d.session.fileCount ++ " files | " ++
    toString d.session.stagedCount ++ " staged | " ++ toString d.session.comments.length ++
    " comments" ++ if d.session.refreshing then " | refreshing…" else ""

def status (d : Desk) : String :=
  match d.mode, d.message with
  | .prompt _ _, _ => " Enter: save | Alt+Enter: new line | Esc: cancel"
  | .snapshot _ _ _, _ => " j/k: scroll | Esc: close"
  | _, some m => " " ++ m.text
  | _, none =>
    " j/k: move | n/N: hunks | s/d/u: stage | 1-4/0: verdict | c: comment | e: export | " ++
      "?: help | q: quit"

def helpText : String :=
  Text.joinLines
    ["",
      "  Navigation:",
      "    j / ↓       Move down",
      "    k / ↑       Move up",
      "    PgDn / PgUp Move a page",
      "    g / G       Go to top / bottom",
      "    n / N       Next / previous hunk",
      "",
      "  Hunk under cursor:",
      "    s           Stage",
      "    d           Discard",
      "    u           Undo staging",
      "    1 2 3 4     Approve / needs changes / reject / question",
      "    0           Clear verdict",
      "",
      "  Review:",
      "    c           Comment on line (or selection)",
      "    v           Start / clear a line selection",
      "    f           Overall feedback",
      "    o           Original request",
      "    p           Show file at the old revision",
      "    e           Export report and session",
      "    r           Refresh diff",
      "",
      "  Other:",
      "    ?           Toggle this help",
      "    q           Quit",
      ""]

def paintNote (color : Color) (title text : String) (p : Picture) : Picture :=
  (p.restyle { foreground := some color }).frame title (Picture.paintCut 0 (Picture.textLines text))

def rowStretches (r : StyledRow) : List Stretch :=
  r.pieces.map fun (style, text) => ⟨text, (style.map Style.look).getD {}⟩

/-- How a row as a whole looks: under the cursor, selected, or neither. -/
def rowLook (d : Desk) (row : Nat) : Look :=
  if row = d.cursor then cursorLook
  else
    match d.anchor with
    | some start =>
      if min start d.cursor ≤ row ∧ row ≤ max start d.cursor then selectionLook else {}
    | none => {}

def paintStream (d : Desk) (p : Picture) : Picture :=
  p.frame "" fun inner =>
    inner.paintRows <| ((d.view.rows.drop d.scroll).take inner.height).mapIdx fun i r =>
      paintLine (d.rowLook (d.scroll + i)) (rowStretches r)

def paintHelp (p : Picture) : Picture :=
  (p.clear.restyle { background := some .darkGray }).frame " Help "
    (Picture.paintWrapped (Picture.textLines helpText))

def paintPrompt (purpose : Purpose) (e : Editor) (p : Picture) : Picture :=
  p.clear.frame purpose.title (Picture.paintCut e.window.left e.shownLines)

def paintSnapshot (title text : String) (scroll : Nat) (p : Picture) : Picture :=
  p.clear.frame title (Picture.paintCut 0 ((Picture.textLines text).drop scroll))

def paintMode (d : Desk) (width height : Nat) (p : Picture) : Picture :=
  match d.mode with
  | .normal => p
  | .help => p.within (popup 60 80 width height) paintHelp
  | .prompt purpose e => p.within (promptArea width height) (paintPrompt purpose e)
  | .snapshot title text scroll =>
    p.within (popup 85 85 width height) (paintSnapshot title text scroll)

def fitScreen (width height : Nat) (d : Desk) : Desk :=
  match d.mode with
  | .prompt purpose e =>
    let area := promptArea width height
    { d with mode := .prompt purpose (e.shownIn (area.width - 2) (area.height - 2)) }
  | _ => d

/-- The screen. Header and status line take three rows each, as far as there are rows. -/
def picture (width height : Nat) (d : Desk) : Picture :=
  let top := min 3 height
  let bottom := min 3 (height - top)
  let middle := height - top - bottom
  let screen := Picture.blank width height
  let screen := screen.within ⟨0, 0, width, top⟩ (paintNote .cyan " revdiff " d.header)
  let screen := screen.within ⟨0, top, width, middle⟩ d.paintStream
  let screen := screen.within ⟨0, top + middle, width, bottom⟩ (paintNote .yellow "" d.status)
  d.paintMode width height screen

end Desk

end HunkReview
