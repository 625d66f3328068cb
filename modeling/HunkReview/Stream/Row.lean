import HunkReview.Review.Session

/-!
# Rows, styles and streams

A stream is the review as rows of text. Each row says what it stands for and which of its bytes
have which style. The whole text is the rows' texts, each ended by a line feed; styles of the
whole text are byte ranges in it.
-/

namespace HunkReview

/-- What a row stands for. -/
inductive Tag where
  | helpBanner
  | placeholder
  | helpFooter
  | fileBanner (file : String)
  | fileFooter (file : String)
  | hunkHeader (hunk : HunkId)
  | diffLine (hunk : HunkId) (line : NumberedLine)
  | lineComment (hunk : HunkId) (line : NumberedLine)
  | commentBorder (hunk : HunkId)
  | hunkComment (hunk : HunkId)
  deriving DecidableEq, Repr

namespace Tag

def hunk? : Tag → Option HunkId
  | hunkHeader id | diffLine id _ | lineComment id _ | commentBorder id | hunkComment id => some id
  | _ => none

def file? : Tag → Option String
  | fileBanner file | fileFooter file => some file
  | tag => tag.hunk?.map (·.file)

def line? : Tag → Option NumberedLine
  | diffLine _ line | lineComment _ line => some line
  | _ => none

def isHunkHeader : Tag → Bool
  | hunkHeader _ => true
  | _ => false

/-- Where a comment written at the row is put; rows outside hunks have no such place. -/
def anchor? (tag : Tag) : Option Anchor :=
  tag.hunk?.map fun id => ⟨id, id.file, tag.line?⟩

end Tag

inductive Style where
  | help
  | fileBanner
  | hunkHeader
  | added
  | removed
  | context
  | addedInline
  | removedInline
  | staged
  | discarded
  | comment
  | border
  | verdict (v : Verdict)
  deriving DecidableEq, Repr

/-- A style for the bytes from `start` up to `stop`. -/
structure Span where
  start : Nat
  stop : Nat
  style : Style
  deriving DecidableEq, Repr

def Span.shift (offset : Nat) (s : Span) : Span :=
  ⟨offset + s.start, offset + s.stop, s.style⟩

/-- A row without its line feed; its spans count from the row's start. -/
structure Row where
  tag : Tag
  text : String
  spans : List Span := []
  deriving DecidableEq, Repr

namespace Row

def segment (r : Row) : String :=
  r.text ++ "\n"

def size (r : Row) : Nat :=
  r.segment.utf8ByteSize

/-- A row of one style. An empty text is not styled. -/
def styled (tag : Tag) (text : String) (style : Style) : Row where
  tag := tag
  text := text
  spans := if text.utf8ByteSize = 0 then [] else [⟨0, text.utf8ByteSize, style⟩]

end Row

def rowStarts : Nat → List Row → List Nat
  | _, [] => []
  | offset, r :: rs => offset :: rowStarts (offset + r.size) rs

def spansFrom : Nat → List Row → List Span
  | _, [] => []
  | offset, r :: rs => r.spans.map (Span.shift offset) ++ spansFrom (offset + r.size) rs

def headerStarts : Nat → List Row → List Nat
  | _, [] => []
  | offset, r :: rs =>
    if r.tag.isHunkHeader then offset :: headerStarts (offset + r.size) rs
    else headerStarts (offset + r.size) rs

def rowsSize : List Row → Nat
  | [] => 0
  | r :: rs => r.size + rowsSize rs

structure Stream where
  rows : List Row
  deriving DecidableEq, Repr

namespace Stream

def segments (s : Stream) : List String :=
  s.rows.map Row.segment

def spans (s : Stream) : List Span :=
  spansFrom 0 s.rows

def starts (s : Stream) : List Nat :=
  rowStarts 0 s.rows

def size (s : Stream) : Nat :=
  rowsSize s.rows

def headerOffsets (s : Stream) : List Nat :=
  headerStarts 0 s.rows

end Stream

end HunkReview
