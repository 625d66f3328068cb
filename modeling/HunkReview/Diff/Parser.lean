import HunkReview.Diff.Hunk
import HunkReview.Text.Blank
import HunkReview.Text.Lines

/-!
# Reading a diff

A file line names the file of the hunks below it. A line that starts with `@@` closes the open hunk,
and opens one when a file is known and the line is a hunk header; the body lines that follow belong
to the open hunk. All else is skipped, so reading never fails and needs one pass over the lines.
-/

namespace HunkReview

def LineNo.ofDigits? (digits : List Char) : Option LineNo :=
  if digits.isEmpty then none else LineNo.ofNat? (Nat.ofDigitChars 10 digits 0)

def LineNo.read? (cs : List Char) : Option (LineNo × List Char) :=
  (LineNo.ofDigits? (cs.takeWhile Char.isDigit)).map (·, cs.dropWhile Char.isDigit)

namespace HunkHeader

/-- A start and an optional count after a comma; an omitted count is one. -/
def readSide? (cs : List Char) : Option (LineNo × LineNo × List Char) :=
  match LineNo.read? cs with
  | none => none
  | some (start, ',' :: rest) => (LineNo.read? rest).map fun p => (start, p.1, p.2)
  | some (start, rest) => some (start, LineNo.clamp 1, rest)

/-- Read `@@ -a,b +c,d @@` and a rest on the same line; the blanks around the rest are dropped. -/
def parse? (cs : List Char) : Option HunkHeader := do
  let cs ← Text.stripStart? "@@ -".toList cs
  let (oldStart, oldCount, cs) ← readSide? cs
  let cs ← Text.stripStart? " +".toList cs
  let (newStart, newCount, cs) ← readSide? cs
  let cs ← Text.stripStart? " @@".toList cs
  if '\n' ∈ cs then none
  else some ⟨oldStart, oldCount, newStart, newCount, String.ofList (Text.trim cs)⟩

end HunkHeader

/-- What follows the last ` b/` that has text on both sides. -/
def newSidePath? : List Char → Option (List Char)
  | [] => none
  | _ :: rest =>
    match newSidePath? rest with
    | some path => some path
    | none =>
      match Text.stripStart? " b/".toList rest with
      | some (c :: path) => some (c :: path)
      | _ => none

/-- The path named by a line `diff --git a/… b/…`. -/
def filePath? (line : List Char) : Option String :=
  match Text.stripStart? "diff --git a/".toList line with
  | some rest => (newSidePath? rest).map String.ofList
  | none => none

def startsWith (start cs : List Char) : Bool :=
  (Text.stripStart? start cs).isSome

def isHunkLine (line : List Char) : Bool :=
  startsWith "@@".toList line

/-- A body line. Lines that start with three equal markers stand between files. -/
def DiffLine.parse? (line : List Char) : Option DiffLine :=
  if startsWith "---".toList line || startsWith "+++".toList line then none
  else
    match line with
    | [] => none
    | c :: content => (LineKind.ofMarker? c).map (⟨·, String.ofList content⟩)

/-- What is known of a diff after some of its lines: the closed hunks, the last one first, the file
named last, and the open hunk, its last line first. -/
structure Scan where
  closed : List Hunk := []
  file : Option String := none
  opened : Option Hunk := none
  deriving DecidableEq, Repr

namespace Scan

def close (s : Scan) : List Hunk :=
  match s.opened with
  | none => s.closed
  | some h => { h with lines := h.lines.reverse } :: s.closed

def openHunk (s : Scan) (line : List Char) : Option Hunk := do
  let path ← s.file
  let header ← HunkHeader.parse? line
  return ⟨header, path, []⟩

def extend (s : Scan) (line : List Char) : Scan :=
  match s.opened, DiffLine.parse? line with
  | some h, some l => { s with opened := some { h with lines := l :: h.lines } }
  | _, _ => s

def step (s : Scan) (line : List Char) : Scan :=
  match filePath? line with
  | some path => ⟨s.close, some path, none⟩
  | none => if isHunkLine line then ⟨s.close, s.file, s.openHunk line⟩ else s.extend line

def hunks (s : Scan) : List Hunk :=
  s.close.reverse

end Scan

def parseDiff (text : String) : List Hunk :=
  ((Text.lines text.toList).foldl Scan.step {}).hunks

end HunkReview
