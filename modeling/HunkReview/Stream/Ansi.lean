import HunkReview.Stream.Layout

/-!
# Terminal output

Styled rows as text with escape sequences: colors and one rendition before a run, a reset after
it. Without color the text stands alone.
-/

namespace HunkReview

/-- Colors of the 256-color palette, and the terminal's own foreground. -/
inductive AnsiColor where
  | palette (index : Nat)
  | default
  deriving DecidableEq, Repr

/-- How a run is printed: foreground, background and the number of a rendition. -/
structure Pen where
  foreground : Option AnsiColor := none
  background : Option AnsiColor := none
  rendition : Option Nat := none
  deriving DecidableEq, Repr

def Verdict.ansiColor : Verdict → AnsiColor
  | .approved => .palette 10
  | .needsChanges => .palette 11
  | .rejected => .palette 9
  | .question => .palette 12
  | .pending => .default

/-- Renditions are bold 1, dim 2, italic 3 and crossed out 9. -/
def Style.pen : Style → Pen
  | .help => { foreground := some (.palette 8), rendition := some 3 }
  | .fileBanner => { foreground := some (.palette 14), rendition := some 1 }
  | .hunkHeader => { foreground := some (.palette 13) }
  | .added => { foreground := some (.palette 10) }
  | .removed => { foreground := some (.palette 9) }
  | .context => {}
  | .addedInline =>
    { foreground := some (.palette 0), background := some (.palette 10), rendition := some 1 }
  | .removedInline =>
    { foreground := some (.palette 0), background := some (.palette 9), rendition := some 1 }
  | .staged => { foreground := some (.palette 2), rendition := some 2 }
  | .discarded => { foreground := some (.palette 8), rendition := some 9 }
  | .comment => { foreground := some (.palette 11) }
  | .border => { foreground := some (.palette 8) }
  | .verdict v => { foreground := some v.ansiColor, rendition := some 1 }

def escape (codes : String) : String :=
  "\x1b[" ++ codes ++ "m"

def AnsiColor.foreground : AnsiColor → String
  | palette n => escape ("38;5;" ++ toString n)
  | default => escape "39"

def AnsiColor.background : AnsiColor → String
  | palette n => escape ("48;5;" ++ toString n)
  | default => escape "49"

namespace Pen

def opening (p : Pen) : String :=
  (p.background.map AnsiColor.background).getD "" ++
    (p.foreground.map AnsiColor.foreground).getD "" ++
    (p.rendition.map fun n => escape (toString n)).getD ""

/-- A rendition is undone by a full reset, which undoes colors too. -/
def closing (p : Pen) : String :=
  if p.rendition.isSome then escape "0"
  else
    (if p.background.isSome then escape "49" else "") ++
      (if p.foreground.isSome then escape "39" else "")

def print (p : Pen) (text : String) : String :=
  p.opening ++ text ++ p.closing

end Pen

def printPiece (color : Bool) : Option Style × List Char → String
  | (some style, text) =>
    if color then style.pen.print (String.ofList text) else String.ofList text
  | (none, text) => String.ofList text

def StyledRow.print (color : Bool) (r : StyledRow) : String :=
  String.join (r.pieces.map (printPiece color)) ++ "\n"

def printRows (color : Bool) (rows : List StyledRow) : String :=
  String.join (rows.map (StyledRow.print color))

/-- A terminal with the text that is presented on it and the spans laid over the text. -/
structure Terminal where
  color : Bool
  segments : List String := []
  spans : List Span := []
  deriving DecidableEq, Repr

namespace Terminal

def renderStream (t : Terminal) (segments : List String) : Terminal :=
  { t with segments, spans := [] }

def applyStyle (t : Terminal) (s : Span) : Terminal :=
  { t with spans := t.spans ++ [s] }

def output (t : Terminal) : String :=
  printRows t.color (layout t.segments t.spans)

end Terminal

def Stream.present (s : Stream) (t : Terminal) : Terminal :=
  s.spans.foldl Terminal.applyStyle (t.renderStream s.segments)

def Stream.print (color : Bool) (s : Stream) : String :=
  (s.present { color }).output

end HunkReview
