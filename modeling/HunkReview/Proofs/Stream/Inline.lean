import HunkReview.Proofs.Diff.Common
import HunkReview.Proofs.Stream.Origin
import HunkReview.Proofs.Stream.Placed
import HunkReview.Proofs.Text.Bytes

/-! Inline highlights. A deletion and the addition right after it in an undecided hunk are one change;
what is set off inside their rows is exactly what is not common to both, and nothing else in the stream
is set off in this way. -/
namespace HunkReview
open Text

def Row.isDiffLine (r : Row) : Bool :=
  match r.tag with
  | .diffLine _ _ => true
  | _ => false

def Stream.lineRows (t : Stream) : List PlacedRow :=
  t.placed.filter (·.row.isDiffLine)

def PlacedRow.contentStart (p : PlacedRow) (l : NumberedLine) : Nat :=
  p.offset + (gutter l).utf8ByteSize

/-- The lines of the review in order: line `n` and the one after it are neighbours in one hunk, and
one change. -/
def Session.ChangeAt (s : Session) (n : Nat) (old new : NumberedLine) : Prop :=
  ∃ above h below front back, s.hunks = above ++ h :: below ∧
    h.numbered = front ++ old :: new :: back ∧
    n = (above.flatMap (·.numbered)).length + front.length ∧ h.IsChange old new

theorem Site.isDiffLine_row (h : ReviewHunk) (site : Site) : (site.row h).isDiffLine := by
  rw [Row.isDiffLine, tag_row]

def Style.isInline : Style → Bool
  | addedInline | removedInline => true
  | _ => false

theorem style_of_mem_styled {tag : Tag} {text : String} {style : Style} {s : Span}
    (member : s ∈ (Row.styled tag text style).spans) : s.style = style := by
  unfold Row.styled at member
  split at member
  · cases member
  · rw [List.mem_singleton.mp member]

/-- The style of a line's whole text is never that of a side's own parts. -/
theorem not_inline_lineRow {h : ReviewHunk} {l : NumberedLine} {s : Span}
    (member : s ∈ (lineRow h l).spans) : ¬s.style.isInline := by
  rw [style_of_mem_styled member]
  cases l.kind <;> cases h.staging <;> decide

/-! ### Spans inside a row -/

namespace Session

variable {side : Inline.Edit} {style : Style}

theorem inlineSpans_own {p : Inline.Part} (own : p.kind = side) (offset : Nat)
    (ps : List Inline.Part) :
    inlineSpans side style offset (p :: ps) =
      ⟨offset, offset + (String.ofList p.text).utf8ByteSize, style⟩ ::
        inlineSpans side style (offset + (String.ofList p.text).utf8ByteSize) ps := by
  rw [inlineSpans, if_pos own]

theorem inlineSpans_kept {p : Inline.Part} (other : p.kind ≠ side) (kept : p.kind = .unchanged)
    (offset : Nat) (ps : List Inline.Part) :
    inlineSpans side style offset (p :: ps) =
      inlineSpans side style (offset + (String.ofList p.text).utf8ByteSize) ps := by
  rw [inlineSpans, if_neg other, if_pos kept]

theorem inlineSpans_other {p : Inline.Part} (other : p.kind ≠ side) (changed : p.kind ≠ .unchanged)
    (offset : Nat) (ps : List Inline.Part) :
    inlineSpans side style offset (p :: ps) = inlineSpans side style offset ps := by
  rw [inlineSpans, if_neg other, if_neg changed]

theorem mem_inlineSpans {offset : Nat} {parts : List Inline.Part} {s : Span}
    (member : s ∈ inlineSpans side style offset parts) : s.style = style ∧ offset ≤ s.start := by
  induction parts generalizing offset with
  | nil => cases member
  | cons p ps ih =>
    by_cases own : p.kind = side
    · rw [inlineSpans_own own] at member
      rcases List.mem_cons.mp member with rfl | below
      · exact ⟨rfl, Nat.le_refl offset⟩
      · have further := ih below
        exact ⟨further.1, by omega⟩
    · by_cases kept : p.kind = .unchanged
      · rw [inlineSpans_kept own kept] at member
        have further := ih member
        exact ⟨further.1, by omega⟩
      · rw [inlineSpans_other own kept] at member
        exact ih member

/-- When the bytes of a side's own parts are deleted, what both sides have in common is left. -/
theorem bytesOutside_inlineSpans (changed : side ≠ .unchanged) {deleted : Nat → Bool} (base : Nat)
    {offset : Nat} {parts : List Inline.Part}
    (agrees : ∀ byte, base + offset ≤ byte →
      byte < base + offset + (String.ofList (Inline.partsText side parts)).utf8ByteSize →
      (deleted byte ↔ ∃ s ∈ inlineSpans side style offset parts,
        base + s.start ≤ byte ∧ byte < base + s.stop)) :
    bytesOutside deleted (base + offset) (String.ofList (Inline.partsText side parts)) =
      bytes (String.ofList (Inline.partsText .unchanged parts)) := by
  induction parts generalizing offset with
  | nil => rfl
  | cons p ps ih =>
    have behind := @ih (offset + (String.ofList p.text).utf8ByteSize)
    rw [Inline.partsText_cons] at agrees
    rw [Inline.partsText_cons, Inline.partsText_cons]
    by_cases own : p.kind = side
    · -- the whole part is deleted, and is not in the common text
      have isIn : side.isIn p.kind := by simp [Inline.Edit.isIn, own]
      have isOut : ¬Inline.Edit.isIn .unchanged p.kind := by simp [Inline.Edit.isIn, own, changed]
      rw [if_pos isIn, String.ofList_append, String.utf8ByteSize_append, inlineSpans_own own] at agrees
      rw [if_pos isIn, if_neg isOut, String.ofList_append, bytesOutside_append, Nat.add_assoc, behind,
        bytesOutside_of_all, List.nil_append]
      · intro byte low high
        refine (agrees byte low (by omega)).mpr ⟨_, List.mem_cons_self, low, ?_⟩
        show byte < base + (offset + _)
        omega
      · intro byte low high
        rw [agrees byte (by omega) (by omega), List.exists_mem_cons_iff]
        simp only [or_iff_right_iff_imp]
        omega
    · by_cases kept : p.kind = .unchanged
      · -- nothing of the part is deleted: the spans begin behind it
        have isIn : side.isIn p.kind := by simp [Inline.Edit.isIn, kept]
        have common : Inline.Edit.isIn .unchanged p.kind := by simp [Inline.Edit.isIn, kept]
        rw [if_pos isIn, String.ofList_append, String.utf8ByteSize_append,
          inlineSpans_kept own kept] at agrees
        rw [if_pos isIn, if_pos common, String.ofList_append, String.ofList_append, bytes_append,
          bytesOutside_append, Nat.add_assoc, behind, bytesOutside_of_none]
        · intro byte low high deletes
          obtain ⟨s, member, start, -⟩ := (agrees byte low (by omega)).mp deletes
          have further := (mem_inlineSpans member).2
          omega
        · intro byte low high
          exact agrees byte (by omega) (by omega)
      · have isOut : ¬side.isIn p.kind := by simp [Inline.Edit.isIn, own, kept]
        have apart : ¬Inline.Edit.isIn .unchanged p.kind := by simp [Inline.Edit.isIn, kept]
        rw [if_neg isOut, inlineSpans_other own kept] at agrees
        rw [if_neg isOut, if_neg apart]
        exact ih agrees

/-- In the whole text: deleting what a row sets off on its side leaves the common text. -/
theorem bytesOutside_changedRow {t : Stream} (inside : SpansInside t.rows) {p : PlacedRow}
    (member : p ∈ t.placed) {h : ReviewHunk} {l : NumberedLine} {parts : List Inline.Part}
    (shown : p.row = changedRow h l side style parts) (changed : side ≠ .unchanged)
    (inline : style.isInline) (content : Inline.partsText side parts = l.content.toList) :
    bytesOutside (t.setsOff style) (p.contentStart l) l.content =
      bytes (String.ofList (Inline.partsText .unchanged parts)) := by
  have text : String.ofList (Inline.partsText side parts) = l.content := by
    rw [content, String.ofList_toList]
  have size : p.row.size = (gutter l).utf8ByteSize + l.content.utf8ByteSize + 1 := by
    rw [size_row, shown, ← String.utf8ByteSize_append]
    rfl
  have spans (s : Span) (styled : s.style = style) :
      s ∈ p.row.spans ↔ s ∈ inlineSpans side style (gutter l).utf8ByteSize parts := by
    have base : s ∉ (lineRow h l).spans := fun there => not_inline_lineRow there (styled ▸ inline)
    rw [shown]
    simp [changedRow, base]
  have agrees : ∀ byte, p.offset + (gutter l).utf8ByteSize ≤ byte →
      byte < p.offset + (gutter l).utf8ByteSize + l.content.utf8ByteSize →
      (t.setsOff style byte ↔ ∃ s ∈ inlineSpans side style (gutter l).utf8ByteSize parts,
        p.offset + s.start ≤ byte ∧ byte < p.offset + s.stop) := by
    intro byte low high
    rw [setsOff_iff inside member style (by omega) (by omega)]
    constructor
    · rintro ⟨s, there, styled, start, stop⟩
      exact ⟨s, (spans s styled).mp there, start, stop⟩
    · rintro ⟨s, there, start, stop⟩
      have styled := (mem_inlineSpans there).1
      exact ⟨s, (spans s styled).mpr there, styled, start, stop⟩
  rw [← text] at agrees
  have left := bytesOutside_inlineSpans changed p.offset agrees
  rwa [text] at left

end Session

/-! ### Rows with inline spans -/

/-- What a row of a line has besides the style of its whole text. -/
theorem Site.mem_spans_row {h : ReviewHunk} {site : Site} {s : Span}
    (member : s ∈ (site.row h).spans) :
    s ∈ (lineRow h site.line).spans ∨
      (∃ new, site.replacement? h = some new ∧
        s ∈ Session.inlineSpans .removed .removedInline (gutter site.line).utf8ByteSize
          (Inline.diff site.line.content new.content)) ∨
      ∃ old, site.replaced? h = some old ∧
        s ∈ Session.inlineSpans .added .addedInline (gutter site.line).utf8ByteSize
          (Inline.diff old.content site.line.content) := by
  unfold row at member
  cases replaced : site.replacement? h with
  | some new =>
    simp only [replaced] at member
    exact (List.mem_append.mp member).imp id fun inline => .inl ⟨new, rfl, inline⟩
  | none =>
    cases replaces : site.replaced? h with
    | some old =>
      simp only [replaced, replaces] at member
      exact (List.mem_append.mp member).imp id fun inline => .inr ⟨old, rfl, inline⟩
    | none =>
      simp only [replaced, replaces] at member
      exact .inl member

namespace Session

theorem stop_of_mem_styled {tag : Tag} {text : String} {style : Style} {s : Span}
    (member : s ∈ (Row.styled tag text style).spans) : s.stop = text.utf8ByteSize := by
  unfold Row.styled at member
  split at member
  · cases member
  · rw [List.mem_singleton.mp member]

/-- Inline spans end with the content that the parts spell. -/
theorem stop_inlineSpans {side : Inline.Edit} {style : Style} {old new : String} {l : NumberedLine}
    (spelled : Inline.partsText side (Inline.diff old new) = l.content.toList) {s : Span}
    (member : s ∈ inlineSpans side style (gutter l).utf8ByteSize (Inline.diff old new)) :
    s.stop ≤ (gutter l ++ l.content).utf8ByteSize := by
  have nonempty : ∀ p ∈ Inline.diff old new, p.text ≠ [] := Inline.part_ne_nil _
  have within := isIn_inlineSpans side style (gutter l) nonempty s member
  rw [spelled, String.ofList_toList] at within
  exact within.stop.le_size

theorem stop_site_row {h : ReviewHunk} {site : Site} {s : Span} (member : s ∈ (site.row h).spans) :
    s.stop ≤ (site.row h).text.utf8ByteSize := by
  rw [Site.text_row]
  rcases Site.mem_spans_row member with base | ⟨new, -, inline⟩ | ⟨old, -, inline⟩
  · exact Nat.le_of_eq (stop_of_mem_styled base)
  · exact stop_inlineSpans (Inline.partsText_diff _ _).1 inline
  · exact stop_inlineSpans (Inline.partsText_diff _ _).2 inline

theorem stop_headerRow {s : Session} {h : ReviewHunk} {span : Span}
    (member : span ∈ (s.headerRow h).spans) : span.stop = (s.headerRow h).text.utf8ByteSize := by
  unfold headerRow at member ⊢
  dsimp only at member ⊢
  split at member
  · next pending =>
    rw [if_pos pending]
    exact stop_of_mem_styled member
  · next decided =>
    rw [if_neg decided]
    rcases List.mem_append.mp member with whole | label
    · exact stop_of_mem_styled whole
    · obtain rfl := List.mem_singleton.mp label
      simp only [Row.styled]

theorem style_headerRow {s : Session} {h : ReviewHunk} {span : Span}
    (member : span ∈ (s.headerRow h).spans) :
    span.style = .hunkHeader ∨ span.style = .verdict h.verdict := by
  unfold headerRow at member
  dsimp only at member
  split at member
  · exact .inl (style_of_mem_styled member)
  · rcases List.mem_append.mp member with whole | label
    · exact .inl (style_of_mem_styled whole)
    · rw [List.mem_singleton.mp label]
      exact .inr rfl

/-- Spans of rows end inside the rows' texts. -/
theorem Origin.spans_inside {s : Session} {r : Row} (origin : s.Origin r) {span : Span}
    (member : span ∈ r.spans) : span.stop ≤ r.text.utf8ByteSize := by
  cases origin with
  | header h inside => exact Nat.le_of_eq (stop_headerRow member)
  | line h inside site there => exact stop_site_row member
  | placeholder | help | banner | footer | lineComment | border | hunkComment =>
    exact Nat.le_of_eq (stop_of_mem_styled member)

theorem Origin.isDiffLine_of_inline {s : Session} {r : Row} (origin : s.Origin r) {span : Span}
    (member : span ∈ r.spans) (inline : span.style.isInline) : r.isDiffLine := by
  cases origin with
  | line h inside site there => exact site.isDiffLine_row h
  | header h inside =>
    rcases style_headerRow member with style | style <;> rw [style] at inline <;> cases inline
  | placeholder | help | banner | footer | lineComment | border | hunkComment =>
    rw [style_of_mem_styled member] at inline
    cases inline

end Session

/-! ### Rows of lines in order -/

theorem sitesFrom_getElem? (previous : Option NumberedLine) (ls : List NumberedLine) (i : Nat) :
    (sitesFrom previous ls)[i]? =
      ls[i]?.map fun l => ⟨if i = 0 then previous else ls[i - 1]?, l, ls[i + 1]?⟩ := by
  induction ls generalizing previous i with
  | nil => rfl
  | cons l ls ih =>
    cases i with
    | zero => simp [sitesFrom, List.head?_eq_getElem?]
    | succ i =>
      rw [sitesFrom, List.getElem?_cons_succ, ih]
      cases i <;> simp

namespace Session

theorem lineRows_siteRows (s : Session) (h : ReviewHunk) (site : Site) :
    (s.siteRows h site).filter Row.isDiffLine = [site.row h] := by
  have comments : (s.lineCommentRows h site.line).filter Row.isDiffLine = [] := by
    refine List.filter_eq_nil_iff.mpr fun r member => ?_
    obtain ⟨text, rfl⟩ := exists_styled_of_mem_comments member
    exact Bool.false_ne_true
  rw [siteRows, List.filter_cons_of_pos (site.isDiffLine_row h), comments]

theorem lineRows_hunkRows (s : Session) (h : ReviewHunk) :
    (s.hunkRows h).filter Row.isDiffLine = h.sites.map (Site.row h) := by
  have header : ¬(s.headerRow h).isDiffLine := by
    rw [Row.isDiffLine, tag_headerRow]
    exact Bool.false_ne_true
  have comments : (s.hunkCommentRows h).filter Row.isDiffLine = [] := by
    refine List.filter_eq_nil_iff.mpr fun r member => ?_
    rcases mem_hunkCommentRows member with ⟨text, rfl⟩ | ⟨text, rfl⟩ <;> exact Bool.false_ne_true
  rw [hunkRows_eq_sites, List.cons_append, List.filter_cons_of_neg header, List.filter_append,
    comments, List.append_nil, List.filter_flatMap]
  simp only [lineRows_siteRows]
  exact List.flatMap_pure_eq_map _ _

/-- The rows of the diff's lines are those of the hunks' sites, in order. -/
theorem map_row_lineRows (s : Session) (showHelp : Bool) :
    (s.stream showHelp).lineRows.map PlacedRow.row =
      s.hunks.flatMap fun h => h.sites.map (Site.row h) := by
  have rows (t : Stream) : t.lineRows.map PlacedRow.row = t.rows.filter Row.isDiffLine := by
    have filtered : (t.placed.map PlacedRow.row).filter Row.isDiffLine =
        t.lineRows.map PlacedRow.row := List.filter_map
    rw [← filtered, Stream.placed, map_row_placedFrom]
  have inHunks : ∀ r : Row, r.tag.hunk? = none → r.isDiffLine = false := by
    rintro ⟨tag, text, spans⟩ outside
    cases tag <;> first | rfl | cases outside
  rw [rows, filter_stream inHunks]
  simp only [lineRows_hunkRows]

end Session

/-- An element of a concatenation belongs to one of its parts. -/
theorem exists_of_getElem?_flatMap {α β : Type} {f : α → List β} {xs : List α} {n : Nat} {y : β}
    (found : (xs.flatMap f)[n]? = some y) :
    ∃ before x after i, xs = before ++ x :: after ∧ n = (before.flatMap f).length + i ∧
      (f x)[i]? = some y := by
  induction xs generalizing n with
  | nil => simp at found
  | cons x xs ih =>
    rw [List.flatMap_cons] at found
    by_cases here : n < (f x).length
    · rw [List.getElem?_append_left here] at found
      exact ⟨[], x, xs, n, rfl, by simp, found⟩
    · rw [List.getElem?_append_right (by omega)] at found
      obtain ⟨before, z, after, i, rfl, place, inside⟩ := ih found
      refine ⟨x :: before, z, after, i, rfl, ?_, inside⟩
      rw [List.flatMap_cons, List.length_append]
      omega

namespace Session

theorem length_sites (hs : List ReviewHunk) :
    (hs.flatMap fun h => h.sites.map (Site.row h)).length = (hs.flatMap (·.numbered)).length := by
  have each (h : ReviewHunk) : h.sites.length = h.numbered.length := by
    have lines : h.sites.map Site.line = h.numbered := map_line_sitesFrom none h.numbered
    rw [← lines, List.length_map]
  simp [List.length_flatMap, each]

/-- The row of a line at its place. -/
theorem exists_lineRow {s : Session} (showHelp : Bool) {above : List ReviewHunk} {h : ReviewHunk}
    {below : List ReviewHunk} (split : s.hunks = above ++ h :: below) {i : Nat} {site : Site}
    (there : h.sites[i]? = some site) :
    ∃ p, (s.stream showHelp).lineRows[(above.flatMap (·.numbered)).length + i]? = some p ∧
      p.row = site.row h := by
  have rows := s.map_row_lineRows showHelp
  have short : i < (h.sites.map (Site.row h)).length := by
    rw [List.length_map]
    exact (List.getElem?_eq_some_iff.mp there).1
  have found : ((s.stream showHelp).lineRows.map PlacedRow.row)[
      (above.flatMap (·.numbered)).length + i]? = some (site.row h) := by
    rw [rows, split, List.flatMap_append, List.flatMap_cons, ← length_sites,
      List.getElem?_append_right (by omega), Nat.add_sub_cancel_left,
      List.getElem?_append_left short, List.getElem?_map, there]
    rfl
  rw [List.getElem?_map] at found
  exact Option.map_eq_some_iff.mp found

/-- The line that a row shows. -/
theorem site_of_lineRow {s : Session} {showHelp : Bool} {n : Nat} {p : PlacedRow}
    (found : (s.stream showHelp).lineRows[n]? = some p) :
    ∃ above h below i site, s.hunks = above ++ h :: below ∧
      n = (above.flatMap (·.numbered)).length + i ∧ h.sites[i]? = some site ∧
      p.row = site.row h := by
  have row : ((s.stream showHelp).lineRows.map PlacedRow.row)[n]? = some p.row := by
    rw [List.getElem?_map, found]
    rfl
  rw [map_row_lineRows] at row
  obtain ⟨above, h, below, i, split, place, inside⟩ := exists_of_getElem?_flatMap row
  rw [List.getElem?_map] at inside
  obtain ⟨site, there, shown⟩ := Option.map_eq_some_iff.mp inside
  exact ⟨above, h, below, i, site, split, by rw [place, length_sites], there, shown.symm⟩

/-- What is common to the two lines of a change, and nothing else, is not set off in their rows; and
nothing is set off in this way outside the contents of such lines. -/
structure HighlightsChanges (s : Session) (t : Stream) : Prop where
  lines : t.lineRows.map (·.row.tag) = s.hunks.flatMap fun h => h.numbered.map (.diffLine h.id)
  changes : ∀ n old new, s.ChangeAt n old new →
    ∃ p q, t.lineRows[n]? = some p ∧ t.lineRows[n + 1]? = some q ∧
      p.row.text = gutter old ++ old.content ∧ q.row.text = gutter new ++ new.content ∧
      ∃ common : String,
        Inline.IsLongestCommon common.toList old.content.toList new.content.toList ∧
        bytesOutside (t.setsOff .removedInline) (p.contentStart old) old.content = bytes common ∧
        bytesOutside (t.setsOff .addedInline) (q.contentStart new) new.content = bytes common
  removed : ∀ span ∈ t.spans, span.style = .removedInline → ∃ n old new p, s.ChangeAt n old new ∧
    t.lineRows[n]? = some p ∧ p.contentStart old ≤ span.start ∧
    span.stop ≤ p.contentStart old + old.content.utf8ByteSize
  added : ∀ span ∈ t.spans, span.style = .addedInline → ∃ n old new q, s.ChangeAt n old new ∧
    t.lineRows[n + 1]? = some q ∧ q.contentStart new ≤ span.start ∧
    span.stop ≤ q.contentStart new + new.content.utf8ByteSize

/-- The two rows of a change. -/
theorem exists_changedRows {s : Session} (showHelp : Bool) {n : Nat} {old new : NumberedLine}
    (change : s.ChangeAt n old new) :
    ∃ h p q, (s.stream showHelp).lineRows[n]? = some p ∧
      (s.stream showHelp).lineRows[n + 1]? = some q ∧
      p.row = changedRow h old .removed .removedInline (Inline.diff old.content new.content) ∧
      q.row = changedRow h new .added .addedInline (Inline.diff old.content new.content) := by
  obtain ⟨above, h, below, front, back, split, numbered, rfl, isChange⟩ := change
  have first : h.sites[front.length]? =
      some ⟨if front.length = 0 then none else h.numbered[front.length - 1]?, old, some new⟩ := by
    rw [ReviewHunk.sites, sitesFrom_getElem?, numbered]
    simp
  have second : h.sites[front.length + 1]? =
      some ⟨some old, new, h.numbered[front.length + 1 + 1]?⟩ := by
    rw [ReviewHunk.sites, sitesFrom_getElem?, numbered]
    simp
  obtain ⟨p, atOld, shownOld⟩ := exists_lineRow showHelp split first
  obtain ⟨q, atNew, shownNew⟩ := exists_lineRow showHelp split second
  rw [Site.row_deletion isChange] at shownOld
  rw [Site.row_addition isChange] at shownNew
  exact ⟨h, p, q, atOld, atNew, shownOld, shownNew⟩

theorem spansInside_stream (s : Session) (showHelp : Bool) :
    SpansInside (s.stream showHelp).rows :=
  fun _ member _ there => (origin_of_mem_stream member).spans_inside there

theorem placed_of_lineRow {t : Stream} {n : Nat} {p : PlacedRow} (found : t.lineRows[n]? = some p) :
    p ∈ t.placed :=
  (List.mem_filter.mp (List.mem_of_getElem? found)).1

/-- An inline span stands in the row of a line. -/
theorem lineRow_of_inline {s : Session} {showHelp : Bool} {span : Span}
    (member : span ∈ (s.stream showHelp).spans) (inline : span.style.isInline) :
    ∃ (n : Nat) (p : PlacedRow), (s.stream showHelp).lineRows[n]? = some p ∧
      ∃ own ∈ p.row.spans, span = own.shift p.offset := by
  obtain ⟨p, placed, own, there, rfl⟩ := exists_placed_of_mem_spans member
  obtain ⟨before, after, rows, -⟩ := mem_placedFrom_iff.mp placed
  have shown : p.row ∈ (s.stream showHelp).rows := by simp [rows]
  have line : p.row.isDiffLine := (origin_of_mem_stream shown).isDiffLine_of_inline there inline
  have isLine : p ∈ (s.stream showHelp).lineRows := List.mem_filter.mpr ⟨placed, line⟩
  obtain ⟨n, found⟩ := List.mem_iff_getElem?.mp isLine
  exact ⟨n, p, found, own, there, rfl⟩

theorem of_site {h : ReviewHunk} {i : Nat} {site : Site} (there : h.sites[i]? = some site) :
    h.numbered[i]? = some site.line ∧ site.next = h.numbered[i + 1]? ∧
      site.previous = if i = 0 then none else h.numbered[i - 1]? := by
  rw [ReviewHunk.sites, sitesFrom_getElem?] at there
  obtain ⟨l, line, rfl⟩ := Option.map_eq_some_iff.mp there
  exact ⟨line, rfl, rfl⟩

theorem changeAt_of {s : Session} {above : List ReviewHunk} {h : ReviewHunk}
    {below : List ReviewHunk} (split : s.hunks = above ++ h :: below) {i : Nat}
    {old new : NumberedLine} (first : h.numbered[i]? = some old)
    (second : h.numbered[i + 1]? = some new) (change : h.IsChange old new) :
    s.ChangeAt ((above.flatMap (·.numbered)).length + i) old new := by
  obtain ⟨short, rfl⟩ := List.getElem?_eq_some_iff.mp first
  obtain ⟨further, rfl⟩ := List.getElem?_eq_some_iff.mp second
  refine ⟨above, h, below, h.numbered.take i, h.numbered.drop (i + 2), split, ?_, ?_, change⟩
  · rw [← List.drop_eq_getElem_cons further, ← List.drop_eq_getElem_cons short,
      List.take_append_drop]
  · rw [List.length_take, Nat.min_eq_left (Nat.le_of_lt short)]

theorem changeAt_of_replacement {s : Session} {above : List ReviewHunk} {h : ReviewHunk}
    {below : List ReviewHunk} (split : s.hunks = above ++ h :: below) {i : Nat} {site : Site}
    (there : h.sites[i]? = some site) {new : NumberedLine} (replaced : site.replacement? h = some new) :
    s.ChangeAt ((above.flatMap (·.numbered)).length + i) site.line new := by
  obtain ⟨line, next, -⟩ := of_site there
  obtain ⟨after, change⟩ := Option.filter_eq_some_iff.mp replaced
  exact changeAt_of split line (next.symm.trans after) (of_decide_eq_true change)

theorem changeAt_of_replaced {s : Session} {above : List ReviewHunk} {h : ReviewHunk}
    {below : List ReviewHunk} (split : s.hunks = above ++ h :: below) {i : Nat} {site : Site}
    (there : h.sites[i]? = some site) {old : NumberedLine} (replaces : site.replaced? h = some old) :
    ∃ j, i = j + 1 ∧ s.ChangeAt ((above.flatMap (·.numbered)).length + j) old site.line := by
  obtain ⟨line, -, previous⟩ := of_site there
  obtain ⟨before, change⟩ := Option.filter_eq_some_iff.mp replaces
  rw [previous] at before
  cases i with
  | zero => cases before
  | succ j => exact ⟨j, rfl, changeAt_of split before line (of_decide_eq_true change)⟩

/-- Inline spans stand in the content of the line that their row shows. -/
theorem inside_content {side : Inline.Edit} {style : Style} {old new : String} {l : NumberedLine}
    (spelled : Inline.partsText side (Inline.diff old new) = l.content.toList) {own : Span}
    (inline : own ∈ inlineSpans side style (gutter l).utf8ByteSize (Inline.diff old new))
    (p : PlacedRow) :
    p.contentStart l ≤ (own.shift p.offset).start ∧
      (own.shift p.offset).stop ≤ p.contentStart l + l.content.utf8ByteSize := by
  have start := (mem_inlineSpans inline).2
  have stop := stop_inlineSpans spelled inline
  rw [String.utf8ByteSize_append] at stop
  simp only [PlacedRow.contentStart, Span.shift]
  omega

/-- An inline span stands in the row of one side of a change, and has that side's style. -/
theorem change_of_inline {s : Session} {showHelp : Bool} {span : Span}
    (member : span ∈ (s.stream showHelp).spans) (inline : span.style.isInline) :
    ∃ n old new p, s.ChangeAt n old new ∧
      ((span.style = .removedInline ∧ (s.stream showHelp).lineRows[n]? = some p ∧
          p.contentStart old ≤ span.start ∧
          span.stop ≤ p.contentStart old + old.content.utf8ByteSize) ∨
        (span.style = .addedInline ∧ (s.stream showHelp).lineRows[n + 1]? = some p ∧
          p.contentStart new ≤ span.start ∧
          span.stop ≤ p.contentStart new + new.content.utf8ByteSize)) := by
  obtain ⟨n, p, found, own, there, rfl⟩ := lineRow_of_inline member inline
  obtain ⟨above, h, below, i, site, split, rfl, atSite, shown⟩ := site_of_lineRow found
  rw [shown] at there
  rcases Site.mem_spans_row there with base | ⟨new, replaced, ofSide⟩ | ⟨old, replaces, ofSide⟩
  · have ofOwn : own.style.isInline := inline
    exact absurd ofOwn (not_inline_lineRow base)
  · have content := inside_content (Inline.partsText_diff _ _).1 ofSide p
    exact ⟨_, site.line, new, p, changeAt_of_replacement split atSite replaced,
      .inl ⟨(mem_inlineSpans ofSide).1, found, content⟩⟩
  · have content := inside_content (Inline.partsText_diff _ _).2 ofSide p
    obtain ⟨j, rfl, change⟩ := changeAt_of_replaced split atSite replaces
    exact ⟨_, old, site.line, p, change, .inr ⟨(mem_inlineSpans ofSide).1, found, content⟩⟩

theorem highlightsChanges_render (s : Session) (showHelp : Bool) :
    s.HighlightsChanges (s.render showHelp).2 := by
  have inside := s.spansInside_stream showHelp
  constructor
  case lines =>
    have tags := congrArg (List.map Row.tag) (s.map_row_lineRows showHelp)
    rw [List.map_map, List.map_flatMap] at tags
    refine tags.trans (congrArg (List.flatMap · s.hunks) (funext fun h => ?_))
    have lines : h.sites.map Site.line = h.numbered := map_line_sitesFrom none h.numbered
    rw [List.map_map, ← lines, List.map_map]
    exact List.map_congr_left fun site _ => site.tag_row h
  case changes =>
    intro n old new change
    obtain ⟨h, p, q, atOld, atNew, shownOld, shownNew⟩ := exists_changedRows showHelp change
    obtain ⟨before, after⟩ := Inline.partsText_diff old.content new.content
    refine ⟨p, q, atOld, atNew, by rw [shownOld]; rfl, by rw [shownNew]; rfl,
      String.ofList (Inline.partsText .unchanged (Inline.diff old.content new.content)), ?_, ?_, ?_⟩
    · rw [String.toList_ofList]
      exact Inline.isLongestCommon_diff old.content new.content
    · exact bytesOutside_changedRow inside (placed_of_lineRow atOld) shownOld (by decide) rfl before
    · exact bytesOutside_changedRow inside (placed_of_lineRow atNew) shownNew (by decide) rfl after
  case removed =>
    intro span member style
    obtain ⟨n, old, new, p, change, here | ⟨other, -⟩⟩ := change_of_inline member (by rw [style]; rfl)
    · exact ⟨n, old, new, p, change, here.2⟩
    · cases style.symm.trans other
  case added =>
    intro span member style
    obtain ⟨n, old, new, p, change, ⟨other, -⟩ | here⟩ := change_of_inline member (by rw [style]; rfl)
    · cases style.symm.trans other
    · exact ⟨n, old, new, p, change, here.2⟩

end Session

end HunkReview
