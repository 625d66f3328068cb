import HunkReview.Desk.Key
import HunkReview.Text.Lines
import HunkReview.Text.Width
import HunkReview.Text.Word

/-!
# The text editor of a prompt

Lines of characters with a caret. The editor also keeps what was last cut, the changes that can be
taken back, and the window through which its text was last shown.
-/

namespace HunkReview

/-- A place in a text: its line, and the number of characters before it there. -/
structure Caret where
  row : Nat := 0
  column : Nat := 0
  deriving DecidableEq, Repr

structure Window where
  top : Nat := 0
  left : Nat := 0
  width : Nat := 0
  height : Nat := 0
  deriving DecidableEq, Repr

structure TextState where
  lines : List (List Char) := [[]]
  caret : Caret := {}
  deriving DecidableEq, Repr

structure Change where
  before : TextState
  after : TextState
  deriving DecidableEq, Repr

/-- Changes to take back and to make again, the nearest first. -/
structure Editor extends TextState where
  window : Window := {}
  cutText : List Char := []
  past : List Change := []
  future : List Change := []
  deriving DecidableEq, Repr

namespace Editor

def tabSize : Nat := 4

def historySize : Nat := 50

def ofText (text : String) : Editor :=
  match Text.lines text.toList with
  | [] => {}
  | lines => { lines }

def text (e : Editor) : String :=
  Text.joinLines (e.lines.map String.ofList)

def lineAt (e : Editor) (row : Nat) : List Char :=
  e.lines.getD row []

def line (e : Editor) : List Char :=
  e.lineAt e.caret.row

/-- Make a change that can be taken back with the caret at `back`. -/
def change (e : Editor) (back : Caret) (after : TextState) : Editor :=
  let past := if historySize ≤ e.past.length + e.future.length then e.past.dropLast else e.past
  { e with toTextState := after, past := ⟨⟨e.lines, back⟩, after⟩ :: past, future := [] }

def undo (e : Editor) : Editor :=
  match e.past with
  | [] => e
  | c :: past => { e with toTextState := c.before, past, future := c :: e.future }

def redo (e : Editor) : Editor :=
  match e.future with
  | [] => e
  | c :: future => { e with toTextState := c.after, past := c :: e.past, future }

/-! ## Changes -/

def insert (e : Editor) (piece : List Char) : Editor :=
  if piece.isEmpty then e
  else
    let line := e.line.take e.caret.column ++ piece ++ e.line.drop e.caret.column
    e.change e.caret ⟨e.lines.set e.caret.row line, ⟨e.caret.row, e.caret.column + piece.length⟩⟩

def breakLine (e : Editor) : Editor :=
  let halves := [e.line.take e.caret.column, e.line.drop e.caret.column]
  e.change e.caret
    ⟨e.lines.take e.caret.row ++ halves ++ e.lines.drop (e.caret.row + 1), ⟨e.caret.row + 1, 0⟩⟩

def joinAbove (e : Editor) : Editor :=
  match e.caret.row with
  | 0 => e
  | above + 1 =>
    let joined := e.lineAt above ++ e.line
    e.change e.caret
      ⟨e.lines.take above ++ joined :: e.lines.drop (above + 2), ⟨above, (e.lineAt above).length⟩⟩

/-- The text without the characters of the caret's line from one position to another, with the
caret where they were. -/
def without (e : Editor) (start stop : Nat) : TextState :=
  ⟨e.lines.set e.caret.row (e.line.take start ++ e.line.drop stop), ⟨e.caret.row, start⟩⟩

def deleteBefore (e : Editor) : Editor :=
  match e.caret.column with
  | 0 => e.joinAbove
  | before + 1 => e.change e.caret (e.without before (before + 1))

/-- Cut the characters of the caret's line from one position to another. -/
def cut (e : Editor) (start stop : Nat) : Editor :=
  let stop := min stop e.line.length
  if start < stop then
    { e.change ⟨e.caret.row, stop⟩ (e.without start stop) with
      cutText := (e.line.take stop).drop start }
  else e

/-! ## Moves -/

inductive Move where
  | forward
  | back
  | up
  | down
  | lineStart
  | lineEnd
  | top
  | bottom
  | wordForward
  | wordBack
  | paragraphForward
  | paragraphBack
  deriving DecidableEq, Repr

/-- The place in a row that is nearest to a column. -/
def placeIn (e : Editor) (row column : Nat) : Caret :=
  ⟨row, min column (e.lineAt row).length⟩

def lastRow (e : Editor) : Nat :=
  e.lines.length - 1

def Move.target (e : Editor) : Move → Caret
  | forward =>
    if e.caret.column < e.line.length then ⟨e.caret.row, e.caret.column + 1⟩
    else if e.caret.row < e.lastRow then ⟨e.caret.row + 1, 0⟩
    else e.caret
  | back =>
    if 0 < e.caret.column then ⟨e.caret.row, e.caret.column - 1⟩
    else if 0 < e.caret.row then ⟨e.caret.row - 1, (e.lineAt (e.caret.row - 1)).length⟩
    else e.caret
  | up => if 0 < e.caret.row then e.placeIn (e.caret.row - 1) e.caret.column else e.caret
  | down => if e.caret.row < e.lastRow then e.placeIn (e.caret.row + 1) e.caret.column else e.caret
  | lineStart => ⟨e.caret.row, 0⟩
  | lineEnd => ⟨e.caret.row, e.line.length⟩
  | top => e.placeIn 0 e.caret.column
  | bottom => e.placeIn e.lastRow e.caret.column
  | wordForward =>
    match Text.nextWordStart? e.line e.caret.column with
    | some column => ⟨e.caret.row, column⟩
    | none =>
      if e.caret.row < e.lastRow then ⟨e.caret.row + 1, 0⟩ else ⟨e.caret.row, e.line.length⟩
  | wordBack =>
    match Text.lastWordStart? e.line e.caret.column with
    | some column => ⟨e.caret.row, column⟩
    | none =>
      if 0 < e.caret.row then ⟨e.caret.row - 1, (e.lineAt (e.caret.row - 1)).length⟩
      else ⟨e.caret.row, 0⟩
  | paragraphForward =>
    let start := fun (above line : List Char) => above.isEmpty && !line.isEmpty
    match Text.firstChange start (e.lines.drop e.caret.row) with
    | some n => e.placeIn (e.caret.row + n) e.caret.column
    | none => e.placeIn e.lastRow e.caret.column
  | paragraphBack =>
    let start := fun (line above : List Char) => !line.isEmpty && above.isEmpty
    if e.caret.row = 0 then e.caret
    else
      match Text.firstChange start (e.lines.take e.caret.row).reverse with
      | some n => e.placeIn (e.caret.row - n) e.caret.column
      | none => e.placeIn 0 e.caret.column

def move (e : Editor) (m : Move) : Editor :=
  { e with caret := m.target e }

def deleteAfter (e : Editor) : Editor :=
  let moved := e.move .forward
  if moved.caret = e.caret then e else moved.deleteBefore

def cutWordBefore (e : Editor) : Editor :=
  match Text.lastWordStart? e.line e.caret.column with
  | some start => e.cut start e.caret.column
  | none => if 0 < e.caret.column then e.cut 0 e.caret.column else e.joinAbove

def cutWordAfter (e : Editor) : Editor :=
  match Text.nextWordEnd? e.line e.caret.column with
  | some stop => e.cut e.caret.column stop
  | none =>
    if e.caret.column < e.line.length then e.cut e.caret.column e.line.length
    else if e.caret.row < e.lastRow then
      { e with caret := ⟨e.caret.row + 1, 0⟩ }.joinAbove
    else e

def cutToLineEnd (e : Editor) : Editor :=
  if e.caret.column < e.line.length then e.cut e.caret.column e.line.length else e.deleteAfter

def cutToLineStart (e : Editor) : Editor :=
  if 0 < e.caret.column then e.cut 0 e.caret.column else e.joinAbove

/-! ## The window -/

/-- The columns of a character; control characters have none. -/
def charColumns (c : Char) : Nat :=
  if c.toNat < 0x20 ∨ (0x7F ≤ c.toNat ∧ c.toNat ≤ 0x9F) then 0 else Text.charColumns c

def textColumns : List Char → Nat
  | [] => 0
  | c :: cs => charColumns c + textColumns cs

def insertTab (e : Editor) : Editor :=
  let before := textColumns (e.line.take e.caret.column)
  e.insert (List.replicate (tabSize - before % tabSize) ' ')

/-- The first row or column shown, after a caret at `at` has come into view. -/
def scrollTo (first size position : Nat) : Nat :=
  if position < first then position
  else if first + size ≤ position then position + 1 - size
  else first

/-- Show the text in a window of a size; the window moves with the caret. -/
def shownIn (e : Editor) (width height : Nat) : Editor :=
  { e with
    window :=
      { top := scrollTo e.window.top height e.caret.row
        left := scrollTo e.window.left width e.caret.column
        width, height } }

def enterWindow (e : Editor) : Editor :=
  let clamp (first size position : Nat) := max first (min position (max first (first + size - 1)))
  let row := min (clamp e.window.top e.window.height e.caret.row) e.lastRow
  { e with caret := e.placeIn row (clamp e.window.left e.window.width e.caret.column) }

def pageDown (e : Editor) : Editor :=
  { e with window.top := e.window.top + e.window.height }.enterWindow

def pageUp (e : Editor) : Editor :=
  { e with window.top := e.window.top - e.window.height }.enterWindow

/-! ## Keys -/

def pressChar (c : Char) (e : Editor) : Editor :=
  if c = '\n' ∨ c = '\r' then e.breakLine else e.insert [c]

def pressControlChar (c : Char) (e : Editor) : Editor :=
  match c with
  | 'm' => e.breakLine
  | 'h' => e.deleteBefore
  | 'd' => e.deleteAfter
  | 'k' => e.cutToLineEnd
  | 'j' => e.cutToLineStart
  | 'w' => e.cutWordBefore
  | 'n' => e.move .down
  | 'p' => e.move .up
  | 'f' => e.move .forward
  | 'b' => e.move .back
  | 'a' => e.move .lineStart
  | 'e' => e.move .lineEnd
  | 'u' => e.undo
  | 'r' => e.redo
  | 'y' => e.insert e.cutText
  | 'v' => e.pageDown
  | _ => e

def pressAltChar (c : Char) (e : Editor) : Editor :=
  match c with
  | 'h' => e.cutWordBefore
  | 'd' => e.cutWordAfter
  | 'f' => e.move .wordForward
  | 'b' => e.move .wordBack
  | ']' | 'n' => e.move .paragraphForward
  | '[' | 'p' => e.move .paragraphBack
  | '<' => e.move .top
  | '>' => e.move .bottom
  | 'v' => e.pageUp
  | _ => e

def pressControlAlt (key : Key) (e : Editor) : Editor :=
  match key with
  | .left | .char 'b' => e.move .lineStart
  | .right | .char 'f' => e.move .lineEnd
  | .up | .char 'p' => e.move .top
  | .down | .char 'n' => e.move .bottom
  | _ => e

def pressControl (key : Key) (e : Editor) : Editor :=
  match key with
  | .char c => e.pressControlChar c
  | .left => e.move .wordBack
  | .right => e.move .wordForward
  | .up => e.move .paragraphBack
  | .down => e.move .paragraphForward
  | _ => e

def pressAlt (key : Key) (e : Editor) : Editor :=
  match key with
  | .char c => e.pressAltChar c
  | .backspace => e.cutWordBefore
  | .delete => e.cutWordAfter
  | _ => e

def pressPlain (key : Key) (e : Editor) : Editor :=
  match key with
  | .char c => e.pressChar c
  | .tab => e.insertTab
  | .backspace => e.deleteBefore
  | .delete => e.deleteAfter
  | .left => e.move .back
  | .right => e.move .forward
  | .up => e.move .up
  | .down => e.move .down
  | _ => e

/-- What a key does to the text. Some keys do the same whatever is held with them. -/
def press (k : KeyPress) (e : Editor) : Editor :=
  match k.key with
  | .enter => e.breakLine
  | .home => e.move .lineStart
  | .endKey => e.move .lineEnd
  | .pageDown => e.pageDown
  | .pageUp => e.pageUp
  | key =>
    match k.control, k.alt with
    | true, true => e.pressControlAlt key
    | true, false => e.pressControl key
    | false, true => e.pressAlt key
    | false, false => e.pressPlain key

end Editor

end HunkReview
