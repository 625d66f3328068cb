import HunkReview.Proofs.Export.ReadBack
import HunkReview.Proofs.Stream.Comments
import HunkReview.Proofs.Stream.Outline

/-! What the reviewer saw is what is exported. The row of a line shows its numbers, its kind and its
content; a comment written at the line tells of just these in the document and in the report. -/
namespace HunkReview

/-! ### Reading a row -/

/-- What can be read off the row of a line. -/
structure PrintedLine where
  old : Option Nat
  new : Option Nat
  kind : LineKind
  content : String
  deriving DecidableEq, Repr

/-- The number in a column, and what follows the column. A column is wider than its five places if
the number is. -/
def readColumn (cs : List Char) : Option Nat × List Char :=
  let column := cs.take 5 ++ (cs.drop 5).takeWhile Char.isDigit
  ((Text.readNat? (column.dropWhile (· = ' '))).map (·.1), (cs.drop 5).dropWhile Char.isDigit)

def Row.printedLine? (r : Row) : Option PrintedLine :=
  let (old, rest) := readColumn r.text.toList
  let (new, rest) := readColumn (rest.drop 1)
  match rest with
  | ' ' :: marker :: content =>
    (LineKind.ofMarker? marker).map fun kind => ⟨old, new, kind, String.ofList content⟩
  | _ => none

def NumberedLine.printed (l : NumberedLine) : PrintedLine :=
  ⟨l.oldLine.map (·.val), l.newLine.map (·.val), l.kind, l.content⟩

theorem toList_padLeft (width : Nat) (text : String) :
    (padLeft width text).toList = List.replicate (width - text.length) ' ' ++ text.toList := by
  rw [padLeft, repeated, String.toList_append, String.toList_ofList]

/-- The digits of a number, or nothing. -/
theorem digits_of_number {n : Option LineNo} {c : Char}
    (member : c ∈ ((n.map LineNo.render).getD "").toList) : c.isDigit := by
  cases n with
  | none => simp at member
  | some n =>
    rw [Option.map_some, Option.getD_some, LineNo.toList_render] at member
    exact Text.isDigit_of_mem_toDigits member

theorem readNat?_number (n : Option LineNo) :
    (Text.readNat? ((n.map LineNo.render).getD "").toList).map (·.1) = n.map (·.val) := by
  cases n with
  | none => rfl
  | some n =>
    have read := Text.readNat?_toDigits n.val (nofun : Text.NoDigitNext [])
    rw [List.append_nil] at read
    rw [Option.map_some, Option.getD_some, LineNo.toList_render, read]
    rfl

/-- A column is as wide as its digits, and five places at least. -/
theorem readColumn_digits {digits : List Char} (all : ∀ c ∈ digits, c.isDigit) (rest : List Char) :
    readColumn (List.replicate (5 - digits.length) ' ' ++ digits ++ ' ' :: rest) =
      ((Text.readNat? digits).map (·.1), ' ' :: rest) := by
  have wide : 5 ≤ (List.replicate (5 - digits.length) ' ' ++ digits).length := by
    rw [List.length_append, List.length_replicate]
    omega
  have further : ∀ c ∈ (List.replicate (5 - digits.length) ' ' ++ digits).drop 5, c.isDigit := by
    intro c member
    rw [List.drop_append, List.drop_eq_nil_of_le (by simp), List.nil_append] at member
    exact all c (List.mem_of_mem_drop member)
  have first : digits.dropWhile (· = ' ') = digits := by
    cases digits with
    | nil => rfl
    | cons c cs =>
      refine List.dropWhile_cons_of_neg fun blank => ?_
      have digit := all c List.mem_cons_self
      rw [of_decide_eq_true blank] at digit
      exact absurd digit (by decide)
  have number : (List.replicate (5 - digits.length) ' ' ++ digits).dropWhile (· = ' ') = digits := by
    rw [List.dropWhile_append_of_pos (by simp), first]
  have stop : (' ' :: rest).takeWhile Char.isDigit = [] ∧
      (' ' :: rest).dropWhile Char.isDigit = ' ' :: rest := ⟨rfl, rfl⟩
  unfold readColumn
  rw [List.take_append_of_le_length wide, List.drop_append_of_le_length wide,
    List.takeWhile_append_of_pos further, List.dropWhile_append_of_pos further, stop.1, stop.2,
    List.append_nil]
  dsimp only
  rw [List.take_append_drop, number]

theorem readColumn_padLeft (n : Option LineNo) (rest : List Char) :
    readColumn ((padLeft 5 ((n.map LineNo.render).getD "")).toList ++ ' ' :: rest) =
      (n.map (·.val), ' ' :: rest) := by
  rw [toList_padLeft, ← String.length_toList, readColumn_digits fun _ => digits_of_number,
    readNat?_number]

theorem printedLine?_of_text {r : Row} {l : NumberedLine} (text : r.text = gutter l ++ l.content) :
    r.printedLine? = some l.printed := by
  have blank : " ".toList = [' '] := by decide
  have shown : r.text.toList =
      (padLeft 5 ((l.oldLine.map LineNo.render).getD "")).toList ++ ' ' ::
        ((padLeft 5 ((l.newLine.map LineNo.render).getD "")).toList ++ ' ' :: l.kind.marker ::
          l.content.toList) := by
    rw [text]
    simp [gutter, blank, Char.toString]
  rw [Row.printedLine?, shown]
  simp [readColumn_padLeft, NumberedLine.printed]

/-! ### What an exported comment tells -/

/-- The number in a comment's label, and the sign before it: the old number with a minus for a removed
line, the new one with a plus for an added line, and the new one for a context line. -/
def PrintedLine.label? (p : PrintedLine) : Option String :=
  match p.kind with
  | .deletion => p.old.map fun n => "[-" ++ toString n ++ "]"
  | .addition => p.new.map fun n => "[+" ++ toString n ++ "]"
  | .context => p.new.map fun n => "[L" ++ toString n ++ "]"

/-- The exported comment tells of the line that was printed: its kind and content, of its numbers the
old one unless the line is added and the new one unless it is removed, and the label. -/
structure Comment.Tells (c : Comment) (p : PrintedLine) : Prop where
  kind : c.toJson.field? "line_type" = some (.text p.kind.name)
  content : c.toJson.field? "line_content" = some (.text p.content)
  old : if p.kind = .addition then c.toJson.field? "old_line" = some .null
    else ∃ n, p.old = some n ∧ c.toJson.field? "old_line" = some (.number n)
  new : if p.kind = .deletion then c.toJson.field? "new_line" = some .null
    else ∃ n, p.new = some n ∧ c.toJson.field? "new_line" = some (.number n)
  label : ∃ label rest, p.label? = some label ∧ c.item = "- **" ++ label ++ "** " ++ rest

theorem Comment.field?_line (c : Comment) :
    c.toJson.field? "line_type" =
        some (.ofOption (fun l : NumberedLine => .text l.kind.name) c.line) ∧
      c.toJson.field? "line_content" =
        some (.ofOption (fun l : NumberedLine => .text l.content) c.line) ∧
      c.toJson.field? "old_line" = some (.ofOption LineNo.toJson (c.line.bind (·.oldLine))) ∧
      c.toJson.field? "new_line" = some (.ofOption LineNo.toJson (c.line.bind (·.newLine))) := by
  simp [toJson, lineFields, Json.field?_cons]

namespace NumberedLine

theorem pinned_kind (l : NumberedLine) : l.pinned.kind = l.kind := by
  unfold pinned
  split <;> rfl

theorem pinned_content (l : NumberedLine) : l.pinned.content = l.content := by
  unfold pinned
  split <;> rfl

theorem pinned_oldLine (l : NumberedLine) :
    l.pinned.oldLine = if l.kind = .addition then none else l.oldLine := by
  unfold pinned
  split <;> simp_all

theorem pinned_newLine (l : NumberedLine) :
    l.pinned.newLine = if l.kind = .deletion then none else l.newLine := by
  unfold pinned
  split <;> simp_all

/-- The old number of a context line is in no label, since the line has a new one. -/
theorem label_pinned {l : NumberedLine} (given : l.kind ≠ .deletion → l.newLine.isSome) :
    l.pinned.label = l.printed.label? := by
  rw [label, pinned_kind, pinned_oldLine, pinned_newLine, PrintedLine.label?, printed]
  cases kind : l.kind with
  | deletion => simp [LineNo.render, Function.comp_def]
  | addition => simp [LineNo.render, Function.comp_def]
  | context =>
    obtain ⟨n, number⟩ := Option.isSome_iff_exists.mp (given (by simp [kind]))
    simp [LineNo.render, number]

theorem isSome_label_printed {l : NumberedLine} (old : l.kind ≠ .addition → l.oldLine.isSome)
    (new : l.kind ≠ .deletion → l.newLine.isSome) : l.printed.label?.isSome := by
  rw [PrintedLine.label?, printed]
  cases kind : l.kind with
  | deletion => simpa using old (by simp [kind])
  | addition => simpa using new (by simp [kind])
  | context => simpa using new (by simp [kind])

end NumberedLine

/-- A number that is there is shown and written as the same. -/
theorem LineNo.exists_written {n : Option LineNo} (given : n.isSome) :
    ∃ m, n.map (·.val) = some m ∧ Json.ofOption toJson n = .number m := by
  obtain ⟨m, rfl⟩ := Option.isSome_iff_exists.mp given
  exact ⟨m.val, rfl, rfl⟩

/-- A comment pinned to a line of a hunk tells of the line as its row shows it. -/
theorem Comment.tells_of_line {h : Hunk} {l : NumberedLine} (there : l ∈ h.numbered) {c : Comment}
    (pinned : c.line = some l.pinned) : c.Tells l.printed := by
  obtain ⟨kind, content, old, new⟩ := c.field?_line
  have oldNumber (other : l.kind ≠ .addition) : l.oldLine.isSome :=
    @Hunk.isSome_lineOn h l there .old (by simpa [LineKind.isOn] using other)
  have newNumber (other : l.kind ≠ .deletion) : l.newLine.isSome :=
    @Hunk.isSome_lineOn h l there .new (by simpa [LineKind.isOn] using other)
  rw [pinned] at kind content old new
  rw [Option.bind_some, NumberedLine.pinned_oldLine] at old
  rw [Option.bind_some, NumberedLine.pinned_newLine] at new
  constructor
  case kind => rw [kind, Json.ofOption, NumberedLine.pinned_kind]; rfl
  case content => rw [content, Json.ofOption, NumberedLine.pinned_content]; rfl
  case old =>
    change if l.kind = .addition then _ else _
    split
    next added => rw [old, if_pos added]; rfl
    next other =>
      obtain ⟨n, shown, written⟩ := LineNo.exists_written (oldNumber other)
      exact ⟨n, shown, by rw [old, if_neg other, written]⟩
  case new =>
    change if l.kind = .deletion then _ else _
    split
    next removed => rw [new, if_pos removed]; rfl
    next other =>
      obtain ⟨n, shown, written⟩ := LineNo.exists_written (newNumber other)
      exact ⟨n, shown, by rw [new, if_neg other, written]⟩
  case label =>
    obtain ⟨label, shown⟩ :=
      Option.isSome_iff_exists.mp (NumberedLine.isSome_label_printed oldNumber newNumber)
    have own : c.label = some label := by
      rw [Comment.label, pinned, Option.bind_some, NumberedLine.label_pinned newNumber, shown]
    obtain ⟨rest, item⟩ := c.exists_item
    rw [own, Option.getD_some, String.append_assoc, String.append_assoc] at item
    exact ⟨label, _, shown, item⟩

/-! ### From the row to the exports -/

namespace Session

theorem exists_diffLine {s : Session} {h : ReviewHunk} (inside : h ∈ s.hunks) {l : NumberedLine}
    (there : l ∈ h.numbered) (showHelp : Bool) :
    ∃ d ∈ (s.stream showHelp).rows, d.tag = .diffLine h.id l := by
  have shown : (h.id, l) ∈ (s.stream showHelp).tags.filterMap Tag.shownLine? := by
    rw [filterMap_shownLine?_stream]
    exact List.mem_flatMap.mpr ⟨h, inside, List.mem_map_of_mem there⟩
  obtain ⟨tag, member, line⟩ := List.mem_filterMap.mp shown
  obtain ⟨d, row, rfl⟩ := List.mem_map.mp member
  refine ⟨d, row, ?_⟩
  cases tag : d.tag <;> rw [tag] at line <;> cases line
  rfl

/-- The exported texts have the comment, after those before it, wherever the hunk is: in the document
as the last entry of its comments, and in the report as the last item below its heading. -/
structure Lists (s : Session) (now : Instant) (id : HunkId) (before : List Comment) (c : Comment) :
    Prop where
  known : ∃ h ∈ s.hunks, h.id = id
  document : ∀ h ∈ s.hunks, h.id = id → ∃ entry, s.Exports now h entry ∧
    entry.field? "comments" = some (.array (before.map Comment.toJson ++ [c.toJson]))
  report : ∀ h ∈ s.hunks, h.id = id → s.Reports now h (before ++ [c])

theorem lists_commented {s : Session} {id : HunkId} (known : ∃ h ∈ s.hunks, h.id = id) {c : Comment}
    (own : c.hunk = id) (now : Instant) :
    (s.commented c).Lists now id (s.commentsFor id) c := by
  have comments : (s.commented c).commentsFor id = s.commentsFor id ++ [c] := by
    rw [commentsFor_commented, if_pos own]
  constructor
  case known => exact known
  case document =>
    rintro h inside rfl
    refine ⟨_, exports_of_mem inside now, ?_⟩
    simp [hunkEntry, HunkEntry.toJson, Json.field?_cons, comments]
  case report =>
    rintro h inside rfl
    rw [← comments]
    exact reports_of_mem inside now

/-- What a row shows of a line is what a comment at the line tells. -/
theorem Origin.tells {s : Session} {d : Row} (origin : s.Origin d) {id : HunkId} {l : NumberedLine}
    (ofLine : d.tag = .diffLine id l) (stamp : Stamp) {place : Anchor} (line : place.line = some l)
    (text : String) (selection : Option Selection) :
    ∃ p, d.printedLine? = some p ∧ (Comment.write stamp place text selection).Tells p := by
  obtain ⟨h, -, -, numbered⟩ := origin.line_mem (show d.tag.hunk? = some id by rw [ofLine]; rfl)
  have there : l ∈ h.numbered := numbered l (by rw [ofLine]; rfl)
  have pinned : (Comment.write stamp place text selection).line = some l.pinned := by
    rw [Comment.write, line]
    rfl
  exact ⟨l.printed, printedLine?_of_text (origin.text_line ofLine),
    Comment.tells_of_line there pinned⟩

/-- A comment written at a row with a line is in both exported texts under its hunk, and its entry in
the document and its item in the report tell of what the row of the line shows. -/
theorem seen_is_exported (s : Session) (showHelp : Bool) {r : Row}
    (shown : r ∈ (s.render showHelp).2.rows) {l : NumberedLine} (line : r.tag.line? = some l)
    (stamp : Stamp) (text : String) (selection : Option Selection) (now : Instant) :
    ∃ place, r.tag.anchor? = some place ∧
      let rendered := s.render showHelp
      let c := Comment.write stamp place text selection
      let added := rendered.1.addComment c
      added.2.applied ∧ added.1.Lists now place.hunk (s.commentsFor place.hunk) c ∧
        (∃ d ∈ rendered.2.rows, d.tag = .diffLine place.hunk l) ∧
        ∀ d ∈ rendered.2.rows, d.tag = .diffLine place.hunk l →
          ∃ p, d.printedLine? = some p ∧ c.Tells p := by
  have again : (s.render showHelp).2 = (s.render showHelp).1.stream showHelp :=
    (s.stream_render showHelp showHelp).symm
  obtain ⟨id, about⟩ : ∃ id, r.tag.hunk? = some id := by
    cases tag : r.tag <;> rw [tag] at line <;> first | exact ⟨_, rfl⟩ | cases line
  rw [again] at shown
  obtain ⟨h, inside, rfl, numbered⟩ := (origin_of_mem_stream shown).line_mem about
  refine ⟨⟨h.id, h.id.file, some l⟩, by rw [Tag.anchor?, about, line]; rfl, ?_⟩
  intro rendered c added
  have known : (rendered.1.hunk? c.hunk).isSome :=
    List.find?_isSome.mpr ⟨h, inside, beq_self_eq_true h.id⟩
  obtain ⟨grown, applied⟩ := addComment_of_known known
  refine ⟨applied, ?_, ?_, fun d member ofLine => ?_⟩
  · have lists := lists_commented ⟨h, inside, rfl⟩ (show c.hunk = h.id from rfl) now
    rwa [← grown] at lists
  · rw [again]
    exact exists_diffLine inside (numbered l line) showHelp
  · exact (origin_of_mem_stream member).tells ofLine stamp rfl text selection

def wideNumbers : Session :=
  applyDiff {} (parseDiff "diff --git a/f b/f\n@@ -100000,2 +7,2 @@\n-a\n+b\n c\n")

def removedLine : NumberedLine :=
  ⟨.deletion, some (.clamp 100000), none, "a"⟩

theorem seen_is_exported_wideNumbers :
    ∃ r ∈ (wideNumbers.render true).2.rows, r.text = "100000       -a" ∧
      ∃ place, r.tag.anchor? = some place ∧
        let c := Comment.write ⟨1, {}⟩ place "why?" none
        ((wideNumbers.render true).1.addComment c).1.Lists {} place.hunk [] c ∧
          ∃ p, r.printedLine? = some p ∧ c.Tells p := by
  have shown : ∃ r ∈ (wideNumbers.render true).2.rows,
      r.text = "100000       -a" ∧ r.tag = .diffLine ⟨"f", .clamp 7⟩ removedLine := by
    decide +kernel
  obtain ⟨r, member, text, tag⟩ := shown
  obtain ⟨place, anchor, -, lists, -, all⟩ :=
    wideNumbers.seen_is_exported true member (by rw [tag]; rfl) ⟨1, {}⟩ "why?" none {}
  have here : place.hunk = ⟨"f", .clamp 7⟩ := by
    rw [tag] at anchor
    exact Option.some.inj anchor ▸ rfl
  exact ⟨r, member, text, place, anchor, lists, all r member (by rw [tag, here])⟩

end Session

end HunkReview
