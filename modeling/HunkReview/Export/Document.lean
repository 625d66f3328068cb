import HunkReview.Export.Files
import HunkReview.Export.Json

/-!
# The session document

The review as data for other tools: for each file its hunks, for each hunk its ranges, marks and
comments. The document is written as JSON.
-/

namespace HunkReview

structure HunkEntry where
  id : String
  context : String
  oldLines : LineNo × LineNo
  newLines : LineNo × LineNo
  verdict : Verdict
  staging : Staging
  comments : List Comment
  deriving DecidableEq, Repr

structure SessionDocument where
  version : Nat
  timestamp : String
  request : Option String
  feedback : Option String
  files : List (String × List HunkEntry)
  deriving DecidableEq, Repr

def LineKind.name : LineKind → String
  | .context => "context"
  | .addition => "add"
  | .deletion => "remove"

def Session.hunkEntry (s : Session) (h : ReviewHunk) : HunkEntry where
  id := h.id.text
  context := h.context
  oldLines := h.oldRange
  newLines := h.newRange
  verdict := h.verdict
  staging := h.staging
  comments := s.commentsFor h.id

def Session.document (s : Session) (now : Instant) : SessionDocument where
  version := 1
  timestamp := now.withOffset
  request := s.request
  feedback := s.feedback
  files := s.byFile.map fun (file, hunks) => (file, hunks.map s.hunkEntry)

namespace LineNo

def toJson (n : LineNo) : Json :=
  .number n.val

def rangeJson (range : LineNo × LineNo) : Json :=
  .array [range.1.toJson, range.2.toJson]

end LineNo

def Selection.toJson (s : Selection) : Json :=
  .object [("start_line", s.first.toJson), ("end_line", s.last.toJson),
    ("version", .text s.side.name)]

/-- The fields of the line a comment is pinned to; all null when there is none. -/
def Comment.lineFields (line : Option NumberedLine) : List (String × Json) :=
  [("line_type", .ofOption (fun l : NumberedLine => .text l.kind.name) line),
    ("old_line", .ofOption LineNo.toJson (line.bind (·.oldLine))),
    ("new_line", .ofOption LineNo.toJson (line.bind (·.newLine))),
    ("line_content", .ofOption (fun l : NumberedLine => .text l.content) line)]

/-- A comment without a selection has no field for it. -/
def Comment.toJson (c : Comment) : Json :=
  .object <| [("id", .text c.id.text), ("text", .text c.text)] ++ lineFields c.line ++
    [("created_at", .text c.createdAt.withZone)] ++
    match c.selection with
    | some s => [("selection", s.toJson)]
    | none => []

def HunkEntry.toJson (h : HunkEntry) : Json :=
  .object
    [("id", .text h.id), ("context", .text h.context), ("old_lines", LineNo.rangeJson h.oldLines),
      ("new_lines", LineNo.rangeJson h.newLines), ("status", .text h.verdict.name),
      ("staging", .text h.staging.name), ("comments", .array (h.comments.map Comment.toJson))]

def SessionDocument.toJson (d : SessionDocument) : Json :=
  .object
    [("version", .number d.version), ("timestamp", .text d.timestamp),
      ("original_request", .ofOption Json.text d.request),
      ("overall_feedback", .ofOption Json.text d.feedback),
      ("files", .object (d.files.map fun (file, hunks) =>
        (file, .object [("hunks", .array (hunks.map HunkEntry.toJson))])))]

def Session.exportDocument (s : Session) (now : Instant) : String :=
  (s.document now).toJson.print

end HunkReview
