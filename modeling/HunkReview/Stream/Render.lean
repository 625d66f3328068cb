import HunkReview.Diff.Inline
import HunkReview.Stream.Row
import HunkReview.Text.Width

/-!
# Rendering a session

The rows of a review: for each run of hunks of one file a banner, the hunks and a footer; for each
hunk its header, its lines with their comments, and the comments on the hunk as a whole.
-/

namespace HunkReview

def bannerWidth : Nat := 72

def commentIndent : String := "            "

def helpBanner : List String :=
  ["Review diff: s stage · d discard · u undo · 1 approve · 2 needs changes · 3 reject · " ++
      "4 question · 0 clear",
    "c comment · v select · f feedback · o request · p old revision · n/N hunks · r refresh · " ++
      "e export · q quit"]

def repeated (c : Char) (n : Nat) : String :=
  String.ofList (List.replicate n c)

def padLeft (width : Nat) (text : String) : String :=
  repeated ' ' (width - text.length) ++ text

def Staging.icon : Staging → String
  | .staged => "●"
  | .discarded => "✗"
  | .pending => "○"

def Verdict.icon : Verdict → String
  | .approved => "✅"
  | .needsChanges => "🔧"
  | .rejected => "❌"
  | .question => "❓"
  | .pending => " "

/-- Undecided hunks show the kind of each line, others their staging. -/
def lineStyle (kind : LineKind) : Staging → Style
  | .staged => .staged
  | .discarded => .discarded
  | .pending =>
    match kind with
    | .addition => .added
    | .deletion => .removed
    | .context => .context

/-- A deletion right before an addition in an undecided hunk is one change. -/
def isChangePair (current : LineKind) (next : Option LineKind) (staging : Staging) : Bool :=
  staging == .pending && current == .deletion && next == some .addition

def fileBannerRow (file : String) : Row :=
  let fill := max (bannerWidth - (Text.width file + 5)) 3
  .styled (.fileBanner file) ("━━━ " ++ file ++ " " ++ repeated '━' fill) .fileBanner

def fileFooterRow (file : String) : Row :=
  .styled (.fileFooter file) (repeated '─' bannerWidth) .border

/-- The line numbers and the marker in front of a line's content. -/
def gutter (l : NumberedLine) : String :=
  let number (n : Option LineNo) := padLeft 5 ((n.map LineNo.render).getD "")
  number l.oldLine ++ " " ++ number l.newLine ++ " " ++ l.kind.marker.toString

def lineRow (h : ReviewHunk) (l : NumberedLine) : Row :=
  .styled (.diffLine h.id l) (gutter l ++ l.content) (lineStyle l.kind h.staging)

/-- One row per line of the text; the lines after the first stand under it. -/
def commentTexts (c : Comment) : List String :=
  let selected :=
    match c.selection with
    | some s => "(lines " ++ s.first.render ++ "-" ++ s.last.render ++ ") "
    | none => ""
  let bodies := (Text.pieces c.text.toList).map fun p =>
    String.ofList (Text.dropEndWhile (· == '\r') p)
  match bodies with
  | [] => []
  | first :: rest =>
    (commentIndent ++ "» " ++ selected ++ first) :: rest.map (commentIndent ++ "  " ++ ·)

def commentRows (tag : Tag) (c : Comment) : List Row :=
  (commentTexts c).map (.styled tag · .comment)

namespace Session

def lineComments (s : Session) (id : HunkId) (l : NumberedLine) : List Comment :=
  (s.commentsFor id).filter (·.isOn l)

def lineCommentRows (s : Session) (h : ReviewHunk) (l : NumberedLine) : List Row :=
  (s.lineComments h.id l).flatMap (commentRows (.lineComment h.id l))

/-- The spans of one side's own parts, when the content begins at `offset`. -/
def inlineSpans (side : Inline.Edit) (style : Style) : Nat → List Inline.Part → List Span
  | _, [] => []
  | offset, p :: ps =>
    let stop := offset + (String.ofList p.text).utf8ByteSize
    if p.kind = side then ⟨offset, stop, style⟩ :: inlineSpans side style stop ps
    else if p.kind = .unchanged then inlineSpans side style stop ps
    else inlineSpans side style offset ps

/-- A line of a change with what is its own set off. -/
def changedRow (h : ReviewHunk) (l : NumberedLine) (side : Inline.Edit) (style : Style)
    (parts : List Inline.Part) : Row :=
  let row := lineRow h l
  { row with spans := row.spans ++ inlineSpans side style (gutter l).utf8ByteSize parts }

def plainLineRows (s : Session) (h : ReviewHunk) (l : NumberedLine) : List Row :=
  lineRow h l :: s.lineCommentRows h l

def changeRows (s : Session) (h : ReviewHunk) (old new : NumberedLine) : List Row :=
  let parts := Inline.diff old.content new.content
  changedRow h old .removed .removedInline parts :: s.lineCommentRows h old ++
    changedRow h new .added .addedInline parts :: s.lineCommentRows h new

def lineRows (s : Session) (h : ReviewHunk) : List NumberedLine → List Row
  | [] => []
  | [l] => s.plainLineRows h l
  | l :: next :: rest =>
    if isChangePair l.kind (some next.kind) h.staging then
      s.changeRows h l next ++ lineRows s h rest
    else s.plainLineRows h l ++ lineRows s h (next :: rest)

def headerText (s : Session) (h : ReviewHunk) : String :=
  let staging := ((s.stagingOf h.id).map Staging.icon).getD " "
  let verdict := ((s.hunk? h.id).map (·.verdict.icon)).getD " "
  staging ++ " " ++ verdict ++ " @@ -" ++ h.oldStart.render ++ "," ++ h.oldCount.render ++ " +" ++
    h.newStart.render ++ "," ++ h.newCount.render ++ " @@" ++
    (if h.context.isEmpty then "" else " " ++ h.context)

/-- The header, with the hunk's own verdict set off at its end unless it is pending. -/
def headerRow (s : Session) (h : ReviewHunk) : Row :=
  let text := s.headerText h
  if h.verdict = .pending then .styled (.hunkHeader h.id) text .hunkHeader
  else
    let before := text ++ "  "
    let whole := before ++ "[" ++ h.verdict.label ++ "]"
    let row := Row.styled (.hunkHeader h.id) whole .hunkHeader
    { row with
      spans := row.spans ++ [⟨before.utf8ByteSize, whole.utf8ByteSize, .verdict h.verdict⟩] }

/-- The comments on the hunk as a whole, between borders. -/
def hunkCommentRows (s : Session) (h : ReviewHunk) : List Row :=
  match (s.commentsFor h.id).filter (·.line.isNone) with
  | [] => []
  | comments =>
    .styled (.commentBorder h.id) (commentIndent ++ "┌─ hunk comments") .border ::
      comments.flatMap (commentRows (.hunkComment h.id)) ++
      [.styled (.commentBorder h.id) (commentIndent ++ "└─") .border]

def hunkRows (s : Session) (h : ReviewHunk) : List Row :=
  s.headerRow h :: s.lineRows h h.numbered ++ s.hunkCommentRows h

/-- The hunks with a banner before and a footer after each run of one file, when `before` is the
file of the hunk before them. -/
def fileRows (s : Session) (before : Option String) : List ReviewHunk → List Row
  | [] => []
  | h :: rest =>
    (if before = some h.file then [] else [fileBannerRow h.file]) ++ s.hunkRows h ++
      (if rest.head?.map (·.file) = some h.file then [] else [fileFooterRow h.file]) ++
      fileRows s (some h.file) rest

def summary (s : Session) : String :=
  toString s.hunks.length ++ " hunks · " ++ toString s.stagedCount ++ " staged · " ++
    toString s.comments.length ++ " comments · ? for help"

def stream (s : Session) (showHelp : Bool) : Stream where
  rows :=
    if s.hunks.isEmpty then [.styled .placeholder "No changes to review." .help]
    else if showHelp then
      helpBanner.map (.styled .helpBanner · .help) ++ [⟨.helpBanner, "", []⟩] ++
        s.fileRows none s.hunks ++ [⟨.helpFooter, "", []⟩, .styled .helpFooter s.summary .help]
    else s.fileRows none s.hunks

def placeHunks : List ReviewHunk → List Nat → List ReviewHunk
  | h :: hs, offset :: offsets => { h with offset } :: placeHunks hs offsets
  | hs, _ => hs

/-- Offsets change nothing that is not read off them. -/
theorem map_placeHunks {α : Type} (view : ReviewHunk → α)
    (blind : ∀ (h : ReviewHunk) (offset : Nat), view { h with offset } = view h)
    (hs : List ReviewHunk) (offsets : List Nat) :
    (placeHunks hs offsets).map view = hs.map view := by
  fun_induction placeHunks hs offsets with
  | case1 h hs offset offsets ih => rw [List.map_cons, List.map_cons, blind, ih]
  | case2 => rfl

def render (s : Session) (showHelp : Bool) : Session × Stream :=
  let stream := s.stream showHelp
  ({ s with hunks := placeHunks s.hunks stream.headerOffsets }, stream)

end Session

end HunkReview
