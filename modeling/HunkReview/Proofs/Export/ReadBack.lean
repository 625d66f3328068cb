import HunkReview.Proofs.Diff.Identity
import HunkReview.Proofs.Export.JsonReader
import HunkReview.Proofs.Export.Listing
import HunkReview.Proofs.Export.Timestamps

/-! The session document read back. A reader that knows the document's fields finds in its text all
that it tells of the review: the texts about the whole, and for each file the hunks with their marks
and comments. So two reviews that differ in any of it have different documents. -/
namespace HunkReview

/-! ### Reading values -/

namespace Json

def field? (name : String) : Json → Option Json
  | object fields => fields.lookup name
  | _ => none

def text? : Json → Option String
  | text s => some s
  | _ => none

def number? : Json → Option Nat
  | number n => some n
  | _ => none

def items? : Json → Option (List Json)
  | array items => some items
  | _ => none

def fields? : Json → Option (List (String × Json))
  | object fields => some fields
  | _ => none

variable {α : Type}

theorem field?_cons (name other : String) (j : Json) (fs : List (String × Json)) :
    (object ((other, j) :: fs)).field? name =
      if name = other then some j else (object fs).field? name := by
  rw [field?, List.lookup_cons]
  by_cases same : name = other
  · simp [same]
  · have apart : (name == other) = false := by simpa using same
    simp [same, apart, field?]

def required (name : String) (reader : Json → Option α) (j : Json) : Option α :=
  (j.field? name).bind reader

theorem required_cons (name : String) (reader : Json → Option α) (other : String) (j : Json)
    (fs : List (String × Json)) : required name reader (object ((other, j) :: fs)) =
      if name = other then reader j else required name reader (object fs) := by
  rw [required, field?_cons]
  split
  · rfl
  · rfl

/-- A field without which there is nothing to read. If it is there, it must be readable. -/
def optional (name : String) (reader : Json → Option α) (j : Json) : Option (Option α) :=
  match j.field? name with
  | none => some none
  | some value => (reader value).map some

/-- Nothing is written as null, and all else is something. -/
def nullable (reader : Json → Option α) : Json → Option (Option α)
  | null => some none
  | j => (reader j).map some

def named (name : α → String) (all : List α) (j : Json) : Option α :=
  j.text?.bind fun s => all.find? (name · == s)

def listOf (reader : Json → Option α) (j : Json) : Option (List α) :=
  j.items?.bind (·.mapM reader)

end Json

def LineNo.ofJson? (j : Json) : Option LineNo :=
  j.number?.bind LineNo.ofNat?

def LineNo.rangeOfJson? (j : Json) : Option (LineNo × LineNo) := do
  match ← Json.listOf LineNo.ofJson? j with
  | [first, last] => some (first, last)
  | _ => none

def Uuid.ofText? (s : String) : Option Uuid :=
  (Text.readHex? (s.toList.filter (· ≠ '-'))).map (BitVec.ofNat 128)

def Selection.ofJson? (j : Json) : Option Selection := do
  let first ← j.required "start_line" LineNo.ofJson?
  let last ← j.required "end_line" LineNo.ofJson?
  let side ← j.required "version" (Json.named Side.name [.old, .new])
  some ⟨first, last, side⟩

/-! ### What a document tells -/

structure CommentRecord where
  id : Uuid
  text : String
  kind : Option LineKind
  oldLine : Option LineNo
  newLine : Option LineNo
  content : Option String
  createdAt : Instant
  selection : Option Selection
  deriving DecidableEq, Repr

structure HunkRecord where
  id : HunkId
  context : String
  oldLines : LineNo × LineNo
  newLines : LineNo × LineNo
  verdict : Verdict
  staging : Staging
  comments : List CommentRecord
  deriving DecidableEq, Repr

structure ReviewRecord where
  version : Nat
  timestamp : String
  request : Option String
  feedback : Option String
  files : List (String × List HunkRecord)
  deriving DecidableEq, Repr

def CommentRecord.ofJson? (j : Json) : Option CommentRecord := do
  let id ← j.required "id" (·.text?.bind Uuid.ofText?)
  let text ← j.required "text" Json.text?
  let kind ← j.required "line_type"
    (Json.nullable (Json.named LineKind.name [.context, .addition, .deletion]))
  let oldLine ← j.required "old_line" (Json.nullable LineNo.ofJson?)
  let newLine ← j.required "new_line" (Json.nullable LineNo.ofJson?)
  let content ← j.required "line_content" (Json.nullable Json.text?)
  let createdAt ← j.required "created_at" (·.text?.bind (Instant.ofText? ·.toList))
  let selection ← j.optional "selection" Selection.ofJson?
  some { id, text, kind, oldLine, newLine, content, createdAt, selection }

def HunkRecord.ofJson? (j : Json) : Option HunkRecord := do
  let id ← j.required "id" (·.text?.bind HunkId.ofText?)
  let context ← j.required "context" Json.text?
  let oldLines ← j.required "old_lines" LineNo.rangeOfJson?
  let newLines ← j.required "new_lines" LineNo.rangeOfJson?
  let verdict ← j.required "status" (Json.named Verdict.name Verdict.all)
  let staging ← j.required "staging" (Json.named Staging.name [.pending, .staged, .discarded])
  let comments ← j.required "comments" (Json.listOf CommentRecord.ofJson?)
  some { id, context, oldLines, newLines, verdict, staging, comments }

def HunkRecord.fileOfField? (field : String × Json) : Option (String × List HunkRecord) :=
  (field.2.required "hunks" (Json.listOf HunkRecord.ofJson?)).map (field.1, ·)

def ReviewRecord.ofJson? (j : Json) : Option ReviewRecord := do
  let version ← j.required "version" Json.number?
  let timestamp ← j.required "timestamp" Json.text?
  let request ← j.required "original_request" (Json.nullable Json.text?)
  let feedback ← j.required "overall_feedback" (Json.nullable Json.text?)
  let files ← j.required "files" (·.fields?.bind (·.mapM HunkRecord.fileOfField?))
  some { version, timestamp, request, feedback, files }

def ReviewRecord.ofText? (text : String) : Option ReviewRecord :=
  (Json.read? text.toList).bind ofJson?

def Comment.record (c : Comment) : CommentRecord where
  id := c.id
  text := c.text
  kind := c.line.map (·.kind)
  oldLine := c.line.bind (·.oldLine)
  newLine := c.line.bind (·.newLine)
  content := c.line.map (·.content)
  createdAt := c.createdAt
  selection := c.selection

namespace Session

def hunkRecord (s : Session) (h : ReviewHunk) : HunkRecord where
  id := h.id
  context := h.context
  oldLines := h.oldRange
  newLines := h.newRange
  verdict := h.verdict
  staging := h.staging
  comments := (s.commentsFor h.id).map Comment.record

def recordsOf (s : Session) (file : String) : List HunkRecord :=
  (s.hunks.filter (·.file == file)).map s.hunkRecord

end Session

/-- The record tells all of a session at a time, and nothing else. -/
structure ReviewRecord.Of (r : ReviewRecord) (s : Session) (now : Instant) : Prop where
  version : r.version = 1
  timestamp : r.timestamp = now.withOffset
  request : r.request = s.request
  feedback : r.feedback = s.feedback
  distinct : (r.files.map (·.1)).Nodup
  files : ∀ file, file ∈ r.files.map (·.1) ↔ ∃ h ∈ s.hunks, h.file = file
  hunks : ∀ e ∈ r.files, e.2 = s.recordsOf e.1

/-! ### Reading parts back -/

theorem LineNo.ofJson?_toJson (n : LineNo) : ofJson? n.toJson = some n := by
  simp [ofJson?, toJson, Json.number?, ofNat?, n.le_max]

theorem mapM_map {α β γ : Type} {reader : β → Option γ} {write : α → β} {view : α → γ}
    {as : List α} (reads : ∀ a ∈ as, reader (write a) = some (view a)) :
    (as.map write).mapM reader = some (as.map view) := by
  induction as with
  | nil => rfl
  | cons a as ih =>
    obtain ⟨first, others⟩ := List.forall_mem_cons.mp reads
    simp [first, ih others]

theorem LineNo.rangeOfJson?_rangeJson (range : LineNo × LineNo) :
    rangeOfJson? (rangeJson range) = some range := by
  simp [rangeOfJson?, rangeJson, Json.listOf, Json.items?, ofJson?_toJson]

/-- The groups of digits between the dashes are all digits there are. -/
theorem Uuid.ofText?_text (id : Uuid) : ofText? id.text = some id := by
  have read : Text.readHex? (Text.hexDigits 32 id.toNat) = some id.toNat :=
    Text.readHex?_hexDigits 32 _
  have noDash : ∀ c ∈ Text.hexDigits 32 id.toNat, (c ≠ '-') := by
    rintro c member rfl
    exact absurd (Text.isSome_hexValue?_of_read read '-' member) (by decide)
  rw [ofText?, text, String.toList_ofList]
  generalize Text.hexDigits 32 id.toNat = digits at read noDash
  have kept (part : List Char) (inside : part ⊆ digits) : part.filter (· ≠ '-') = part :=
    List.filter_eq_self.mpr fun c member => decide_eq_true (noDash c (inside member))
  have groups : digits.take 8 ++ ((digits.drop 8).take 4 ++ ((digits.drop 12).take 4 ++
      ((digits.drop 16).take 4 ++ digits.drop 20))) = digits := by
    have split (start count : Nat) : (digits.drop start).take count ++ digits.drop (start + count) =
        digits.drop start := by
      rw [← List.drop_drop, List.take_append_drop]
    rw [split 16 4, split 12 4, split 8 4, List.take_append_drop]
  have part (start count : Nat) : (digits.drop start).take count ⊆ digits :=
    List.Subset.trans (List.take_subset _ _) (List.drop_subset _ _)
  have all : (digits.take 8 ++ '-' :: (digits.drop 8).take 4 ++ '-' :: (digits.drop 12).take 4 ++
      '-' :: (digits.drop 16).take 4 ++ '-' :: digits.drop 20).filter (· ≠ '-') = digits := by
    have dash : decide ('-' ≠ '-') = false := by decide
    simp only [List.filter_append, List.filter_cons, dash, kept _ (part _ _),
      kept _ (List.take_subset _ _), kept _ (List.drop_subset _ _)]
    simpa using groups
  rw [all, read, Option.map_some, BitVec.ofNat_toNat, BitVec.setWidth_eq]

namespace Json

variable {α β : Type}

theorem nullable_ofOption {reader : Json → Option β} {encode : α → Json} {view : α → β}
    (reads : ∀ a, reader (encode a) = some (view a)) (given : ∀ a, encode a ≠ .null)
    (a : Option α) : nullable reader (ofOption encode a) = some (a.map view) := by
  cases a with
  | none => rfl
  | some a =>
    have written := reads a
    have some := given a
    rw [ofOption, nullable]
    · rw [written]
      rfl
    · exact some

theorem named_name {name : α → String} {all : List α}
    (distinct : ∀ a, all.find? (name · == name a) = some a) (a : α) :
    named name all (.text (name a)) = some a :=
  distinct a

theorem listOf_map {reader : Json → Option β} {encode : α → Json} {view : α → β} {as : List α}
    (reads : ∀ a ∈ as, reader (encode a) = some (view a)) :
    listOf reader (.array (as.map encode)) = some (as.map view) :=
  mapM_map reads

end Json

theorem Selection.ofJson?_toJson (s : Selection) : ofJson? s.toJson = some s := by
  have side : Json.named Side.name [.old, .new] (.text s.side.name) = some s.side :=
    Json.named_name (fun side => by cases side <;> decide) s.side
  simp [ofJson?, toJson, Json.required_cons, side, LineNo.ofJson?_toJson]

theorem Json.text?_text (s : String) : text? (.text s) = some s :=
  rfl

theorem Json.ofOption_text_eq_null {s : Option String} :
    ofOption Json.text s = null ↔ s = none := by
  cases s <;> simp [ofOption]

theorem Json.nullable_text (s : Option String) : nullable text? (ofOption Json.text s) = some s := by
  rw [nullable_ofOption text?_text (by simp) s, Option.map_id']

theorem LineNo.nullable_toJson (n : Option LineNo) :
    Json.nullable ofJson? (.ofOption toJson n) = some n := by
  rw [Json.nullable_ofOption ofJson?_toJson (by simp [toJson]) n, Option.map_id']

theorem LineKind.named_name (kind : LineKind) :
    Json.named name [context, addition, deletion] (.text kind.name) = some kind :=
  Json.named_name (fun kind => by cases kind <;> decide) kind

/-- Kind and content of a line are both there or both null. -/
theorem NumberedLine.nullable_fields (line : Option NumberedLine) :
    Json.nullable (Json.named LineKind.name [.context, .addition, .deletion])
        (.ofOption (fun l : NumberedLine => .text l.kind.name) line) = some (line.map (·.kind)) ∧
      Json.nullable Json.text? (.ofOption (fun l : NumberedLine => .text l.content) line) =
        some (line.map (·.content)) :=
  ⟨Json.nullable_ofOption (fun l : NumberedLine => l.kind.named_name) (by simp) line,
    Json.nullable_ofOption (fun l : NumberedLine => Json.text?_text l.content) (by simp) line⟩

/-- There is a field for the selection just if there is one. -/
theorem Comment.field?_selection (c : Comment) :
    c.toJson.field? "selection" = c.selection.map Selection.toJson := by
  cases selection : c.selection with
  | none =>
    simp [toJson, lineFields, Json.field?_cons, selection]
    rfl
  | some range => simp [toJson, lineFields, Json.field?_cons, selection]

theorem Comment.optional_selection (c : Comment) :
    c.toJson.optional "selection" Selection.ofJson? = some c.selection := by
  rw [Json.optional, c.field?_selection]
  cases c.selection with
  | none => rfl
  | some range => simp [Selection.ofJson?_toJson]

theorem CommentRecord.ofJson?_toJson (c : Comment) : ofJson? c.toJson = some c.record := by
  obtain ⟨kind, content⟩ := NumberedLine.nullable_fields c.line
  have oldLine := LineNo.nullable_toJson (c.line.bind (·.oldLine))
  have newLine := LineNo.nullable_toJson (c.line.bind (·.newLine))
  rw [ofJson?, c.optional_selection]
  simp [Comment.toJson, Comment.lineFields, Json.required_cons, Json.text?, Uuid.ofText?_text,
    Instant.ofText?_withZone, kind, content, oldLine, newLine, Comment.record]

theorem HunkRecord.ofJson?_toJson (s : Session) (h : ReviewHunk) :
    ofJson? (s.hunkEntry h).toJson = some (s.hunkRecord h) := by
  have comments : Json.listOf CommentRecord.ofJson?
      (.array ((s.commentsFor h.id).map Comment.toJson)) =
        some ((s.commentsFor h.id).map Comment.record) :=
    Json.listOf_map fun c _ => CommentRecord.ofJson?_toJson c
  have verdict : Json.named Verdict.name Verdict.all (.text h.verdict.name) = some h.verdict :=
    Json.named_name (fun v => by cases v <;> decide) h.verdict
  have staging : Json.named Staging.name [.pending, .staged, .discarded] (.text h.staging.name) =
      some h.staging :=
    Json.named_name (fun v => by cases v <;> decide) h.staging
  simp [ofJson?, HunkEntry.toJson, Session.hunkEntry, Session.hunkRecord, Json.required_cons,
    Json.text?, HunkId.ofText?_text, LineNo.rangeOfJson?_rangeJson, comments, verdict, staging]

theorem HunkRecord.fileOfField?_toJson (s : Session) (group : String × List ReviewHunk) :
    fileOfField? (group.1,
        .object [("hunks", .array ((group.2.map s.hunkEntry).map HunkEntry.toJson))]) =
      some (group.1, group.2.map s.hunkRecord) := by
  have hunks : Json.listOf ofJson? (.array (group.2.map (HunkEntry.toJson ∘ s.hunkEntry))) =
      some (group.2.map s.hunkRecord) := Json.listOf_map fun h _ => ofJson?_toJson s h
  simp [fileOfField?, Json.required_cons, hunks]

/-! ### Reading a document back -/

namespace Session

def reviewRecord (s : Session) (now : Instant) : ReviewRecord where
  version := 1
  timestamp := now.withOffset
  request := s.request
  feedback := s.feedback
  files := s.byFile.map fun (file, hunks) => (file, hunks.map s.hunkRecord)

theorem reviewRecord_of (s : Session) (now : Instant) : (s.reviewRecord now).Of s now where
  version := rfl
  timestamp := rfl
  request := rfl
  feedback := rfl
  distinct := by
    have files : (s.reviewRecord now).files.map (·.1) = s.byFile.map (·.1) := by
      simp [reviewRecord, Function.comp_def]
    rw [files]
    exact s.byFile_of.increasing.imp String.ne_of_lt
  files := by
    intro file
    rw [← s.byFile_of.files file]
    simp [reviewRecord, Function.comp_def]
  hunks := by
    intro e member
    obtain ⟨group, there, rfl⟩ := List.mem_map.mp member
    rw [recordsOf, ← s.byFile_of.hunks group there]

def filesJson (s : Session) : List (String × Json) :=
  s.byFile.map fun group =>
    (group.1, .object [("hunks", .array ((group.2.map s.hunkEntry).map HunkEntry.toJson))])

theorem mapM_filesJson (s : Session) (now : Instant) :
    s.filesJson.mapM HunkRecord.fileOfField? = some (s.reviewRecord now).files :=
  mapM_map fun group _ => HunkRecord.fileOfField?_toJson s group

theorem toJson_document (s : Session) (now : Instant) : (s.document now).toJson = .object
    [("version", .number 1), ("timestamp", .text now.withOffset),
      ("original_request", .ofOption Json.text s.request),
      ("overall_feedback", .ofOption Json.text s.feedback), ("files", .object s.filesJson)] := by
  rw [SessionDocument.toJson, document, List.map_map]
  rfl

theorem ofJson?_document (s : Session) (now : Instant) :
    ReviewRecord.ofJson? (s.document now).toJson = some (s.reviewRecord now) := by
  rw [toJson_document, ReviewRecord.ofJson?]
  simp [Json.required_cons, Json.number?, Json.text?, Json.fields?, Json.nullable_text,
    s.mapM_filesJson now]
  rfl

theorem read?_exportDocument (s : Session) (now : Instant) :
    Json.read? (s.exportDocument now).toList = some (s.document now).toJson :=
  Json.read?_of_isText (Json.isText_print _)

theorem ofText?_exportDocument (s : Session) (now : Instant) :
    ReviewRecord.ofText? (s.exportDocument now) = some (s.reviewRecord now) := by
  rw [ReviewRecord.ofText?, read?_exportDocument, Option.bind_some, ofJson?_document]

/-- The entries that a reader of the document's text finds under a file. -/
def exportedHunks? (s : Session) (now : Instant) (file : String) : Option (List Json) :=
  (Json.read? (s.exportDocument now).toList).bind <|
    Json.required "files" <| Json.required file <| Json.required "hunks" Json.items?

/-- In the document's text the entry is at the hunk's place among the hunks of its file. -/
def Exports (s : Session) (now : Instant) (h : ReviewHunk) (entry : Json) : Prop :=
  ∃ (entries : List Json) (i : Nat), s.exportedHunks? now h.file = some entries ∧
    (s.hunks.filter (·.file == h.file))[i]? = some h ∧ entries[i]? = some entry ∧
    entry.field? "id" = some (.text h.id.text)

/-- No file has two fields, so the first field found for a file is the only one. -/
theorem field?_filesJson {s : Session} {group : String × List ReviewHunk} (there : group ∈ s.byFile) :
    (Json.object s.filesJson).field? group.1 =
      some (.object [("hunks", .array ((group.2.map s.hunkEntry).map HunkEntry.toJson))]) := by
  obtain ⟨before, after, groups⟩ := List.append_of_mem there
  have increasing := s.byFile_of.increasing
  rw [groups, List.map_append, List.map_cons] at increasing
  rw [Json.field?, filesJson, groups, List.map_append, List.map_cons]
  refine List.lookup_eq_some_iff.mpr ⟨_, _, rfl, fun field member => ?_⟩
  obtain ⟨other, earlier, rfl⟩ := List.mem_map.mp member
  have less : other.1 < group.1 :=
    (List.pairwise_append.mp increasing).2.2 _ (List.mem_map_of_mem earlier) _ List.mem_cons_self
  exact bne_iff_ne.mpr (String.ne_of_lt less).symm

theorem exportedHunks?_of_mem {s : Session} {h : ReviewHunk} (inside : h ∈ s.hunks) (now : Instant) :
    s.exportedHunks? now h.file =
      some ((s.hunks.filter (·.file == h.file)).map fun g => (s.hunkEntry g).toJson) := by
  obtain ⟨group, there, file, -⟩ := exists_group inside
  have found := field?_filesJson there
  rw [s.byFile_of.hunks group there, file] at found
  rw [exportedHunks?, read?_exportDocument, Option.bind_some, toJson_document]
  simp [Json.required, Json.field?_cons, found, Json.items?]

theorem exports_of_mem {s : Session} {h : ReviewHunk} (inside : h ∈ s.hunks) (now : Instant) :
    s.Exports now h (s.hunkEntry h).toJson := by
  have member : h ∈ s.hunks.filter (·.file == h.file) := by simp [inside]
  obtain ⟨i, place⟩ := List.mem_iff_getElem?.mp member
  exact ⟨_, i, exportedHunks?_of_mem inside now, place, by rw [List.getElem?_map, place]; rfl, rfl⟩

theorem recordsOf_eq_nil {s : Session} {file : String} (absent : ¬∃ h ∈ s.hunks, h.file = file) :
    s.recordsOf file = [] := by
  have none : s.hunks.filter (·.file == file) = [] :=
    List.filter_eq_nil_iff.mpr fun h member same => absent ⟨h, member, eq_of_beq same⟩
  rw [recordsOf, none, List.map_nil]

end Session

/-- A record leaves no choice about what there is to tell of a file. -/
theorem ReviewRecord.Of.same_records {r : ReviewRecord} {s t : Session} {now later : Instant}
    (first : r.Of s now) (second : r.Of t later) (file : String) :
    s.recordsOf file = t.recordsOf file := by
  by_cases member : file ∈ r.files.map (·.1)
  · obtain ⟨e, there, rfl⟩ := List.mem_map.mp member
    rw [← first.hunks e there, ← second.hunks e there]
  · rw [Session.recordsOf_eq_nil (mt (first.files file).mpr member),
      Session.recordsOf_eq_nil (mt (second.files file).mpr member)]

namespace Session

/-- The text of a document is one value, and reading it gives all there is to tell of the session
and nothing else. So sessions with the same text have the same to tell. -/
theorem document_read_back (s : Session) (now : Instant) :
    (∃ j, Json.IsText j (s.exportDocument now).toList ∧
      (∀ k, Json.IsText k (s.exportDocument now).toList → k = j) ∧
      (j.field? "original_request" = some .null ↔ s.request = none) ∧
      (j.field? "overall_feedback" = some .null ↔ s.feedback = none) ∧
      ∀ c ∈ s.comments, (c.toJson.field? "selection" = none ↔ c.selection = none)) ∧
    (∃ r, ReviewRecord.ofText? (s.exportDocument now) = some r ∧ r.Of s now) ∧
    ∀ (t : Session) (later : Instant), t.exportDocument later = s.exportDocument now →
      later.withOffset = now.withOffset ∧ t.request = s.request ∧ t.feedback = s.feedback ∧
        ∀ file, t.recordsOf file = s.recordsOf file := by
  have text : Json.IsText (s.document now).toJson (s.exportDocument now).toList :=
    Json.isText_print _
  refine ⟨⟨_, text, fun _ other => other.unique text, ?_, ?_, ?_⟩,
    ⟨_, s.ofText?_exportDocument now, s.reviewRecord_of now⟩, ?_⟩
  · simp [toJson_document, Json.field?_cons, Json.ofOption_text_eq_null]
  · simp [toJson_document, Json.field?_cons, Json.ofOption_text_eq_null]
  · simp [Comment.field?_selection]
  · intro t later same
    have records : t.reviewRecord later = s.reviewRecord now := by
      have read := t.ofText?_exportDocument later
      rw [same, ofText?_exportDocument] at read
      exact (Option.some.inj read).symm
    have first := t.reviewRecord_of later
    rw [records] at first
    have second := s.reviewRecord_of now
    exact ⟨first.timestamp.symm.trans second.timestamp, first.request.symm.trans second.request,
      first.feedback.symm.trans second.feedback, first.same_records second⟩

end Session

end HunkReview
