import HunkReview.Export.Files
import HunkReview.Stream.Render

/-!
# The report

The review as Markdown for people: the texts about the whole, a summary in numbers, and a section
per file with its hunks and their comments.
-/

namespace HunkReview

structure HunkSection where
  newStart : LineNo
  context : String
  verdict : Verdict
  staging : Staging
  comments : List Comment
  deriving DecidableEq, Repr

structure FileSection where
  file : String
  hunks : List HunkSection
  deriving DecidableEq, Repr

structure Report where
  generated : Instant
  request : Option String
  feedback : Option String
  verdicts : List (Verdict × Nat)
  hunkCount : Nat
  fileCount : Nat
  stagedCount : Nat
  files : List FileSection
  deriving DecidableEq, Repr

def Session.hunkSection (s : Session) (h : ReviewHunk) : HunkSection where
  newStart := h.newStart
  context := h.context
  verdict := h.verdict
  staging := h.staging
  comments := s.commentsFor h.id

def Session.report (s : Session) (now : Instant) : Report where
  generated := now
  request := s.request
  feedback := s.feedback
  verdicts := s.verdictCounts
  hunkCount := s.hunks.length
  fileCount := s.fileCount
  stagedCount := s.stagedCount
  files := s.byFile.map fun (file, hunks) => ⟨file, hunks.map s.hunkSection⟩

/-- The length of the longest run of backticks, when `run` of them come right before. -/
def longestRunFrom (run : Nat) : List Char → Nat
  | [] => run
  | c :: cs => if c = '\x60' then longestRunFrom (run + 1) cs else max run (longestRunFrom 0 cs)

def longestRun (cs : List Char) : Nat :=
  longestRunFrom 0 cs

/-- A code span: the fence is longer than any run of backticks inside, and blanks keep it apart
from a backtick at either end of the content. -/
def codeSpan (content : String) : String :=
  let cs := content.toList
  let fence := repeated '\x60' (longestRun cs + 1)
  let pad := if cs.head? = some '\x60' ∨ cs.getLast? = some '\x60' then " " else ""
  fence ++ pad ++ content ++ pad ++ fence

def Selection.note (s : Selection) : String :=
  "  _Lines " ++ s.first.render ++ "-" ++ s.last.render ++ " (" ++ s.side.name ++ ")_\n"

/-- A list item: the label and the text, the line commented on, and the selection. -/
def Comment.item (c : Comment) : String :=
  let texts := Text.stringLines c.text
  "- **" ++ c.label.getD "[hunk]" ++ "** " ++ texts.head?.getD "" ++ "\n" ++
    String.join (texts.tail.map fun l => "  " ++ l ++ "\n") ++
    (match c.line with
      | some l => "  > " ++ codeSpan l.content ++ "\n"
      | none => "") ++
    (match c.selection with
      | some s => s.note
      | none => "") ++
    "\n"

namespace HunkSection

def title (h : HunkSection) : String :=
  "Line " ++ h.newStart.render ++ if h.context.isEmpty then "" else ": " ++ h.context

def verdictLine (h : HunkSection) : String :=
  "**Verdict:** " ++ h.verdict.label ++
    if h.staging = .pending then "" else " (" ++ h.staging.name ++ ")"

def text (h : HunkSection) : String :=
  "### " ++ h.title ++ "\n\n" ++ h.verdictLine ++ "\n\n" ++ String.join (h.comments.map Comment.item)

end HunkSection

def FileSection.text (f : FileSection) : String :=
  "## " ++ f.file ++ "\n\n" ++ String.join (f.hunks.map HunkSection.text)

namespace Report

def requestText : Option String → String
  | none => ""
  | some request =>
    "## Original Request\n\n" ++
      String.join ((Text.stringLines request).map fun l => "> " ++ l ++ "\n") ++ "\n"

def feedbackText : Option String → String
  | none => ""
  | some feedback => "## Overall Feedback\n\n" ++ feedback ++ "\n\n"

def summaryText (r : Report) : String :=
  "## Summary\n\n" ++
    String.join (r.verdicts.map fun (v, n) => "- " ++ v.label ++ ": " ++ toString n ++ "\n") ++
    "- " ++ toString r.hunkCount ++ " hunks in " ++ toString r.fileCount ++ " files, " ++
    toString r.stagedCount ++ " staged\n\n"

def text (r : Report) : String :=
  "# Code Review\n\n_Generated: " ++ r.generated.toMinute ++ "_\n\n" ++ requestText r.request ++
    feedbackText r.feedback ++ r.summaryText ++
    if r.hunkCount = 0 then "_No changes to review._\n"
    else String.join (r.files.map FileSection.text)

end Report

def Session.exportReport (s : Session) (now : Instant) : String :=
  (s.report now).text

end HunkReview
