import HunkReview.Stream.Row

/-!
# Runs of style

Spans of a whole text become, row by row, runs that cover the row's text. Runs begin and end only
between characters, at the text's ends and where a span begins or ends; where spans overlap the
last one wins.
-/

namespace HunkReview

/-- The bytes from `start` up to `stop` of a row, in one style or none. -/
structure Run where
  start : Nat
  stop : Nat
  style : Option Style
  deriving DecidableEq, Repr

structure StyledRow where
  text : String
  runs : List Run
  deriving DecidableEq, Repr

namespace Span

def clip (offset size : Nat) (s : Span) : Option Span :=
  let start := max s.start offset - offset
  let stop := min s.stop (offset + size) - offset
  if start < stop then some ⟨start, stop, s.style⟩ else none

def covers (s : Span) (start stop : Nat) : Bool :=
  s.start ≤ start && stop ≤ s.stop

end Span

/-! ## Spans cut into rows -/

/-- The offsets at which segments begin, the first of them at `offset`. -/
def segmentStarts : Nat → List String → List Nat
  | _, [] => []
  | offset, segment :: rest => offset :: segmentStarts (offset + segment.utf8ByteSize) rest

/-- The last row that begins at or before an offset, or else the first row. -/
def lastStartAt (starts : List Nat) (offset : Nat) : Nat :=
  (starts.takeWhile (· ≤ offset)).length - 1

/-- A part of a span and the number of the row that it is in. -/
structure RowPart where
  row : Nat
  part : Span
  deriving DecidableEq, Repr

/-- The parts of a span in segments, the first of which is row `row` and begins at `offset`. Where
the span has ended no part is looked for. -/
def Span.partsFrom (s : Span) : Nat → Nat → List String → List RowPart
  | _, _, [] => []
  | row, offset, segment :: rest =>
    if s.stop ≤ offset then []
    else
      let size := segment.utf8ByteSize
      let below := s.partsFrom (row + 1) (offset + size) rest
      match s.clip offset size with
      | some part => ⟨row, part⟩ :: below
      | none => below

def Span.parts (segments : List String) (starts : List Nat) (s : Span) : List RowPart :=
  let first := lastStartAt starts s.start
  s.partsFrom first (starts.getD first 0) (segments.drop first)

/-! ## Runs of a row -/

/-- The offsets at which the runs of a text begin and end, in order: its ends, and those of the spans
cut at the end of the text. An offset inside a character is none of them. -/
def runBounds (text : String) (spans : List Span) : List Nat :=
  let size := text.utf8ByteSize
  let bounds := 0 :: size :: spans.flatMap fun s => [min s.start size, min s.stop size]
  (bounds.filter fun offset => (⟨offset⟩ : String.Pos.Raw).isValid text).mergeSort.eraseReps

def runsBetween (spans : List Span) : List Nat → List Run
  | start :: stop :: rest =>
    ⟨start, stop, (spans.reverse.find? (·.covers start stop)).map (·.style)⟩ ::
      runsBetween spans (stop :: rest)
  | _ => []

def styleRow (text : String) (spans : List Span) : StyledRow where
  text := text
  runs := runsBetween spans (runBounds text spans)

def rowText (segment : String) : String :=
  String.ofList (Text.dropEndWhile (· == '\n') segment.toList)

def layout (segments : List String) (spans : List Span) : List StyledRow :=
  let parts := spans.flatMap (Span.parts segments (segmentStarts 0 segments))
  segments.mapIdx fun row segment =>
    styleRow (rowText segment) (parts.filterMap fun p => if p.row = row then some p.part else none)

def Stream.layout (s : Stream) : List StyledRow :=
  HunkReview.layout s.segments s.spans

/-- As many characters as fit into a number of bytes, and the rest. -/
def takeBytes : Nat → List Char → List Char × List Char
  | _, [] => ([], [])
  | n, c :: cs =>
    if c.utf8Size ≤ n then
      let (front, rest) := takeBytes (n - c.utf8Size) cs
      (c :: front, rest)
    else ([], c :: cs)

def cutRuns : List Run → List Char → List (Option Style × List Char)
  | [], _ => []
  | r :: rs, cs =>
    let (front, rest) := takeBytes (r.stop - r.start) cs
    (r.style, front) :: cutRuns rs rest

def StyledRow.pieces (r : StyledRow) : List (Option Style × List Char) :=
  cutRuns r.runs r.text.toList

end HunkReview
