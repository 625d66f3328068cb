import HunkReview.Diff.Line

/-!
# Hunks

A hunk is a block of changed lines of one file. Its identity is the file together with the first
line in the new file.
-/

namespace HunkReview

structure HunkId where
  file : String
  newStart : LineNo
  deriving DecidableEq, Repr

def HunkId.text (id : HunkId) : String :=
  id.file ++ ":" ++ id.newStart.render

/-- The numbers and the trailing text of a hunk's `@@` line. -/
structure HunkHeader where
  oldStart : LineNo
  oldCount : LineNo
  newStart : LineNo
  newCount : LineNo
  context : String
  deriving DecidableEq, Repr

structure Hunk extends HunkHeader where
  file : String
  lines : List DiffLine
  deriving DecidableEq, Repr

namespace Hunk

def id (h : Hunk) : HunkId :=
  ⟨h.file, h.newStart⟩

def oldRange (h : Hunk) : LineNo × LineNo :=
  (h.oldStart, h.oldStart.last h.oldCount)

def newRange (h : Hunk) : LineNo × LineNo :=
  (h.newStart, h.newStart.last h.newCount)

def numbered (h : Hunk) : List NumberedLine :=
  numberFrom h.oldStart h.newStart h.lines

end Hunk

end HunkReview
