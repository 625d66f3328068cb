import HunkReview.Proofs.Review.Marks
import HunkReview.Proofs.Stream.Inline

/-! What the rows of a hunk tell of its marks. The icons in the header are those of the marks
remembered for the identity, the label in the header and the style of the lines those of the hunk's
own marks. The two agree in the first hunk of an identity, and in all hunks of a diff that has just
been taken; where an identity is repeated, marks set later reach the first of its hunks only. -/
namespace HunkReview

/-! ### Reading marks off rows -/

/-- The staging that the style of a line denotes. Changes are set off in undecided hunks only. -/
def Style.staging? : Style → Option Staging
  | staged => some .staged
  | discarded => some .discarded
  | added | removed | context | addedInline | removedInline => some .pending
  | _ => none

def Style.verdict? : Style → Option Verdict
  | verdict v => some v
  | _ => none

namespace Row

def stagingIcon? (r : Row) : Option Staging :=
  [Staging.pending, .staged, .discarded].find? fun s => startsWith s.icon.toList r.text.toList

def verdictIcon? (r : Row) : Option Verdict :=
  Verdict.all.find? fun v => startsWith v.icon.toList (r.text.toList.drop 2)

def label (r : Row) : Verdict :=
  (r.spans.findSome? (·.style.verdict?)).getD .pending

def LabelWritten (r : Row) : Prop :=
  ∀ span ∈ r.spans, ∀ v, span.style = .verdict v → ∃ before,
    r.text = before ++ ("[" ++ v.label ++ "]") ∧
      span.start = before.utf8ByteSize ∧ span.stop = r.text.utf8ByteSize

/-- The row is styled, and all its styles denote the staging. -/
def StyledAs (r : Row) (staging : Staging) : Prop :=
  r.spans ≠ [] ∧ ∀ span ∈ r.spans, span.style.staging? = some staging

instance (r : Row) (staging : Staging) : Decidable (r.StyledAs staging) :=
  inferInstanceAs (Decidable (_ ∧ _))

end Row

/-- A hunk's header, and the rows of the diff's lines between it and the next one. -/
structure HunkBlock where
  header : Row
  lines : List Row
  deriving DecidableEq, Repr

def hunkBlocks : List Row → List HunkBlock
  | [] => []
  | r :: rs =>
    if r.tag.isHunkHeader then
      ⟨r, (rs.takeWhile (!·.tag.isHunkHeader)).filter Row.isDiffLine⟩ :: hunkBlocks rs
    else hunkBlocks rs

namespace HunkBlock

structure IsOf (b : HunkBlock) (h : ReviewHunk) : Prop where
  header : b.header.tag = .hunkHeader h.id
  lines : b.lines.map (·.tag) = h.numbered.map (.diffLine h.id)

/-- The icons denote the one pair of marks, the label and the styles of the lines the other. -/
structure Shows (b : HunkBlock) (icons own : Staging × Verdict) : Prop where
  stagingIcon : b.header.stagingIcon? = some icons.1
  verdictIcon : b.header.verdictIcon? = some icons.2
  label : b.header.label = own.2
  written : b.header.LabelWritten
  lines : ∀ r ∈ b.lines, r.StyledAs own.1

/-- The marks that the block shows do not contradict each other. -/
def Consistent (b : HunkBlock) : Prop :=
  ∃ marks, b.Shows marks marks

/-- A block contradicts itself just where the two pairs of marks differ visibly: without lines it
has no style to compare. -/
theorem Shows.consistent_iff {b : HunkBlock} {icons own : Staging × Verdict}
    (shows : b.Shows icons own) :
    b.Consistent ↔ icons.2 = own.2 ∧ (b.lines ≠ [] → icons.1 = own.1) := by
  constructor
  · rintro ⟨marks, same⟩
    have staging : icons.1 = marks.1 :=
      Option.some.inj (shows.stagingIcon.symm.trans same.stagingIcon)
    have verdict : icons.2 = marks.2 :=
      Option.some.inj (shows.verdictIcon.symm.trans same.verdictIcon)
    refine ⟨verdict.trans (same.label.symm.trans shows.label), fun nonempty => ?_⟩
    obtain ⟨r, line⟩ := List.exists_mem_of_ne_nil _ nonempty
    obtain ⟨span, member⟩ := List.exists_mem_of_ne_nil _ (shows.lines r line).1
    have styles : some marks.1 = some own.1 :=
      ((same.lines r line).2 span member).symm.trans ((shows.lines r line).2 span member)
    exact staging.trans (Option.some.inj styles)
  · rintro ⟨verdict, staging⟩
    refine ⟨icons, { shows with label := shows.label.trans verdict.symm, lines := ?_ }⟩
    intro r line
    rw [staging (List.ne_nil_of_mem line)]
    exact shows.lines r line

end HunkBlock

/-! ### The blocks of a stream -/

def Row.isInBlock (r : Row) : Bool :=
  r.tag.isHunkHeader || r.isDiffLine

theorem Row.isDiffLine_header {r : Row} (header : r.tag.isHunkHeader) : r.isDiffLine = false := by
  obtain ⟨tag, text, spans⟩ := r
  cases tag <;> first | rfl | cases header

/-- Rows outside of blocks are between headers, where they are passed over. -/
theorem filter_takeWhile_isInBlock (rows : List Row) :
    ((rows.filter Row.isInBlock).takeWhile (!·.tag.isHunkHeader)).filter Row.isDiffLine =
      (rows.takeWhile (!·.tag.isHunkHeader)).filter Row.isDiffLine := by
  induction rows with
  | nil => rfl
  | cons r rows ih =>
    cases header : r.tag.isHunkHeader <;> cases line : r.isDiffLine <;>
      simp [Row.isInBlock, header, line, ih]

theorem hunkBlocks_filter (rows : List Row) :
    hunkBlocks (rows.filter Row.isInBlock) = hunkBlocks rows := by
  induction rows with
  | nil => rfl
  | cons r rows ih =>
    cases header : r.tag.isHunkHeader with
    | true =>
      have shown : r.isInBlock := by simp [Row.isInBlock, header]
      rw [List.filter_cons_of_pos shown, hunkBlocks, hunkBlocks, if_pos header, if_pos header,
        filter_takeWhile_isInBlock, ih]
    | false =>
      cases line : r.isDiffLine with
      | true =>
        have shown : r.isInBlock := by simp [Row.isInBlock, line]
        rw [List.filter_cons_of_pos shown, hunkBlocks, hunkBlocks, header, ih]
        rfl
      | false =>
        have hidden : ¬r.isInBlock := by simp [Row.isInBlock, header, line]
        rw [List.filter_cons_of_neg hidden, ih, hunkBlocks, header]
        rfl

namespace Session

def block (s : Session) (h : ReviewHunk) : HunkBlock :=
  ⟨s.headerRow h, h.sites.map (Site.row h)⟩

theorem hunkBlocks_append {lines : List Row} (noHeader : ∀ r ∈ lines, r.tag.isHunkHeader = false)
    (rest : List Row) : hunkBlocks (lines ++ rest) = hunkBlocks rest := by
  induction lines with
  | nil => rfl
  | cons r lines ih =>
    obtain ⟨here, below⟩ := List.forall_mem_cons.mp noHeader
    rw [List.cons_append, hunkBlocks, here, ih below]
    rfl

theorem isHunkHeader_headerRow (s : Session) (h : ReviewHunk) :
    (s.headerRow h).tag.isHunkHeader := by
  rw [tag_headerRow]
  rfl

theorem hunkBlocks_hunks (s : Session) (hs : List ReviewHunk) :
    hunkBlocks (hs.flatMap fun h => s.headerRow h :: h.sites.map (Site.row h)) =
      hs.map s.block := by
  induction hs with
  | nil => rfl
  | cons h hs ih =>
    have lines : ∀ r ∈ h.sites.map (Site.row h),
        r.tag.isHunkHeader = false ∧ r.isDiffLine := by
      intro r member
      obtain ⟨site, -, rfl⟩ := List.mem_map.mp member
      exact ⟨by rw [Site.tag_row]; rfl, site.isDiffLine_row h⟩
    have next : ((hs.flatMap fun h => s.headerRow h :: h.sites.map (Site.row h)).takeWhile
        (!·.tag.isHunkHeader)) = [] := by
      cases hs with
      | nil => rfl
      | cons g hs => simp [Tag.isHunkHeader]
    rw [List.flatMap_cons, List.cons_append, hunkBlocks, if_pos (s.isHunkHeader_headerRow h),
      hunkBlocks_append fun r member => (lines r member).1, ih, List.map_cons,
      List.takeWhile_append_of_pos (by intro r member; simp [(lines r member).1]), next,
      List.append_nil, List.filter_eq_self.mpr fun r member => (lines r member).2]
    rfl

theorem filter_isInBlock_hunkRows (s : Session) (h : ReviewHunk) :
    (s.hunkRows h).filter Row.isInBlock = s.headerRow h :: h.sites.map (Site.row h) := by
  have rows : s.hunkRows h =
      s.headerRow h :: (h.sites.flatMap (s.siteRows h) ++ s.hunkCommentRows h) :=
    s.hunkRows_eq_sites h
  have below : ∀ r ∈ h.sites.flatMap (s.siteRows h) ++ s.hunkCommentRows h,
      r.isInBlock = r.isDiffLine := by
    intro r member
    have other : r.tag.isHunkHeader = false := by
      rcases List.mem_append.mp member with line | comment
      · obtain ⟨site, -, shown⟩ := List.mem_flatMap.mp line
        rcases tag_of_mem_siteRows shown with tag | tag <;> rw [tag] <;> rfl
      · rcases mem_hunkCommentRows comment with ⟨text, rfl⟩ | ⟨text, rfl⟩ <;> rfl
    rw [Row.isInBlock, other, Bool.false_or]
  have header := s.isHunkHeader_headerRow h
  have lines := s.lineRows_hunkRows h
  rw [rows, List.filter_cons_of_neg (by simp [Row.isDiffLine_header header])] at lines
  rw [rows, List.filter_cons_of_pos (by rw [Row.isInBlock, header, Bool.true_or]),
    List.filter_congr below, lines]

/-- A rendered session has one block for each hunk, in order. -/
theorem hunkBlocks_stream (s : Session) (showHelp : Bool) :
    hunkBlocks (s.stream showHelp).rows = s.hunks.map s.block := by
  have inHunks : ∀ r : Row, r.tag.hunk? = none → r.isInBlock = false := by
    rintro ⟨tag, text, spans⟩ outside
    cases tag <;> first | rfl | cases outside
  rw [← hunkBlocks_filter, filter_stream inHunks]
  simp only [filter_isInBlock_hunkRows]
  exact s.hunkBlocks_hunks s.hunks

/-! ### What a block tells -/

/-- The header begins with the icons of the marks of its identity. -/
theorem exists_text_headerRow {s : Session} (carries : s.Carries) {h : ReviewHunk}
    (member : h ∈ s.hunks) :
    ∃ rest, (s.headerRow h).text.toList = (s.marks h.id).1.icon.toList ++
      ' ' :: ((s.marks h.id).2.icon.toList ++ ' ' :: rest) := by
  obtain ⟨first, found⟩ := exists_hunk? (List.mem_map_of_mem member)
  have verdict : first.verdict = s.verdicts.get h.id := congrArg Prod.snd (carries _ _ found)
  obtain ⟨label, text⟩ : ∃ label, (s.headerRow h).text = s.headerText h ++ label := by
    unfold headerRow
    dsimp only
    split
    · exact ⟨"", String.append_empty.symm⟩
    · exact ⟨_, by simp only [Row.styled, String.append_assoc]; rfl⟩
  simp only [text, headerText, stagingOf, found, Option.map_some, Option.getD_some, verdict,
    String.toList_append, List.append_assoc]
  exact ⟨_, rfl⟩

theorem stagingIcon?_headerRow {s : Session} (carries : s.Carries) {h : ReviewHunk}
    (member : h ∈ s.hunks) : (s.headerRow h).stagingIcon? = some (s.marks h.id).1 := by
  obtain ⟨rest, text⟩ := exists_text_headerRow carries member
  rw [Row.stagingIcon?, text]
  cases (s.marks h.id).1 <;> rfl

theorem verdictIcon?_headerRow {s : Session} (carries : s.Carries) {h : ReviewHunk}
    (member : h ∈ s.hunks) : (s.headerRow h).verdictIcon? = some (s.marks h.id).2 := by
  obtain ⟨rest, text⟩ := exists_text_headerRow carries member
  rw [Row.verdictIcon?, text]
  cases (s.marks h.id).1 <;> cases (s.marks h.id).2 <;> rfl

theorem label_headerRow (s : Session) (h : ReviewHunk) : (s.headerRow h).label = h.verdict := by
  have whole (tag : Tag) (text : String) :
      (Row.styled tag text .hunkHeader).spans.findSome? (·.style.verdict?) = none := by
    refine List.findSome?_eq_none_iff.mpr fun span member => ?_
    rw [style_of_mem_styled member]
    rfl
  unfold Row.label headerRow
  dsimp only
  split
  · next pending => rw [whole, pending, Option.getD_none]
  · rw [List.findSome?_append, whole]
    rfl

theorem labelWritten_headerRow (s : Session) (h : ReviewHunk) :
    (s.headerRow h).LabelWritten := by
  unfold Row.LabelWritten headerRow
  dsimp only
  split
  · intro span member v label
    rw [style_of_mem_styled member] at label
    cases label
  · intro span member v label
    rcases List.mem_append.mp member with whole | own
    · rw [style_of_mem_styled whole] at label
      cases label
    · obtain rfl := List.mem_singleton.mp own
      obtain rfl : h.verdict = v := Style.verdict.inj label
      refine ⟨s.headerText h ++ "  ", ?_, ?_, ?_⟩
      · simp only [Row.styled, String.append_assoc]
      · dsimp only
      · dsimp only [Row.styled]

theorem gutter_ne_empty (l : NumberedLine) : gutter l ≠ "" := by
  intro none
  have marker : l.kind.marker ∈ (gutter l).toList := by
    simp [gutter, Char.toString]
  rw [none] at marker
  cases marker

theorem styledAs_row (h : ReviewHunk) (site : Site) : (site.row h).StyledAs h.staging := by
  have whole : (lineRow h site.line).spans ≠ [] := by
    simp [lineRow, Row.styled, gutter_ne_empty]
  constructor
  · unfold Site.row
    split
    · exact List.append_ne_nil_of_left_ne_nil whole _
    · exact List.append_ne_nil_of_left_ne_nil whole _
    · exact whole
  · intro span member
    rcases Site.mem_spans_row member with base | ⟨new, replaced, ofSide⟩ | ⟨old, replaces, ofSide⟩
    · rw [style_of_mem_styled base]
      cases h.staging <;> cases site.line.kind <;> rfl
    · obtain ⟨-, change⟩ := Option.filter_eq_some_iff.mp replaced
      rw [(mem_inlineSpans ofSide).1, (of_decide_eq_true change).1]
      rfl
    · obtain ⟨-, change⟩ := Option.filter_eq_some_iff.mp replaces
      rw [(mem_inlineSpans ofSide).1, (of_decide_eq_true change).1]
      rfl

theorem isOf_block (s : Session) (h : ReviewHunk) : (s.block h).IsOf h where
  header := s.tag_headerRow h
  lines := by
    rw [block, List.map_map, ← map_line_sitesFrom none h.numbered, List.map_map]
    exact List.map_congr_left fun site _ => Site.tag_row h site

theorem shows_block {s : Session} (carries : s.Carries) {h : ReviewHunk} (member : h ∈ s.hunks) :
    (s.block h).Shows (s.marks h.id) h.marks where
  stagingIcon := stagingIcon?_headerRow carries member
  verdictIcon := verdictIcon?_headerRow carries member
  label := s.label_headerRow h
  written := s.labelWritten_headerRow h
  lines := by
    intro r line
    obtain ⟨site, -, rfl⟩ := List.mem_map.mp line
    exact styledAs_row h site

theorem consistent_block {s : Session} (carries : s.Carries) {h : ReviewHunk} (member : h ∈ s.hunks)
    (same : h.marks = s.marks h.id) : (s.block h).Consistent :=
  (shows_block carries member).consistent_iff.mpr (by simp [same])

/-- Where no hunk before it has its identity, a hunk is the one that is marked. -/
theorem marks_of_first {s : Session} (carries : s.Carries) {i : Nat} {h : ReviewHunk}
    (found : s.hunks[i]? = some h) (first : ∀ g ∈ s.hunks.take i, g.id ≠ h.id) :
    h.marks = s.marks h.id := by
  obtain ⟨within, rfl⟩ := List.getElem?_eq_some_iff.mp found
  refine carries _ _ (List.find?_eq_some_iff_append.mpr
    ⟨by simp, s.hunks.take i, s.hunks.drop (i + 1), ?_, ?_⟩)
  · rw [← List.drop_eq_getElem_cons within, List.take_append_drop]
  · intro g before
    simpa using first g before

end Session

/-- What the blocks of a rendered session tell of its marks. -/
structure Session.ShowsMarks (s : Session) (blocks : List HunkBlock) : Prop where
  /-- There is one block for each hunk, with the icons of its identity's marks and its own label
  and styles. -/
  each : List.Forall₂ (fun h b => b.IsOf h ∧ b.Shows (s.marks h.id) h.marks) s.hunks blocks
  /-- The first block of an identity does not contradict itself. -/
  first : ∀ i h b, s.hunks[i]? = some h → blocks[i]? = some b →
    (∀ g ∈ s.hunks.take i, g.id ≠ h.id) → b.Consistent

theorem Session.showsMarks_stream {s : Session} (carries : s.Carries) (showHelp : Bool) :
    s.ShowsMarks (hunkBlocks (s.stream showHelp).rows) where
  each := by
    rw [s.hunkBlocks_stream, List.forall₂_map_right_iff, List.forall₂_same]
    exact fun h member => ⟨s.isOf_block h, shows_block carries member⟩
  first := by
    intro i h b found shown first
    rw [s.hunkBlocks_stream, List.getElem?_map, found] at shown
    obtain rfl := Option.some.inj shown
    exact consistent_block carries (List.mem_of_getElem? found) (marks_of_first carries found first)

/-- A diff that has just been taken gives its marks to all hunks of an identity. -/
theorem Session.consistent_applyDiff (s : Session) (hunks : List Hunk) (showHelp : Bool) :
    ∀ b ∈ hunkBlocks ((s.applyDiff hunks).stream showHelp).rows, b.Consistent := by
  intro b shown
  rw [hunkBlocks_stream] at shown
  obtain ⟨h, member, rfl⟩ := List.mem_map.mp shown
  obtain ⟨raw, -, taken⟩ := List.mem_map.mp member
  refine consistent_block (s.carries_applyDiff hunks) member ?_
  subst taken
  rfl

namespace History

/-- Whatever happened before, a hunk's marks do not contradict each other where no hunk before it
has its identity, and nowhere in a diff that has just been taken. -/
theorem marks_shown (actions : List Action) (showHelp : Bool) :
    (of actions).session.ShowsMarks (hunkBlocks ((of actions).session.render showHelp).2.rows) ∧
    ∀ text, ∀ b ∈ hunkBlocks
      (((of actions).session.applyDiff (parseDiff text)).render showHelp).2.rows, b.Consistent :=
  ⟨Session.showsMarks_stream (agrees_of actions).carries showHelp,
    fun text => (of actions).session.consistent_applyDiff (parseDiff text) showHelp⟩

def markedTwice : List Action :=
  [.start "patch",
    .applyDiff "diff --git a/f b/f\n@@ -1 +1 @@\n-a\n+b\n@@ -7 +1 @@\n-c\n+d\n",
    .stage ⟨"f", .clamp 1⟩, .setVerdict ⟨"f", .clamp 1⟩ .approved]

/-- Both headers have the icons of the new marks, but the second hunk has neither the label nor the
style. -/
theorem marks_contradict_markedTwice :
    ∃ b, (hunkBlocks ((of markedTwice).session.render false).2.rows)[1]? = some b ∧
      b.header.text = "● ✅ @@ -7,1 +1,1 @@" ∧ b.header.label = .pending ∧
      (b.lines ≠ [] ∧ ∀ r ∈ b.lines, r.StyledAs .pending) ∧ ¬b.Consistent := by
  have seen : (hunkBlocks ((of markedTwice).session.render false).2.rows)[1]?.map (fun b =>
      (b.header.text, b.header.label, decide (b.lines ≠ [] ∧ ∀ r ∈ b.lines, r.StyledAs .pending),
        b.header.verdictIcon?)) =
      some ("● ✅ @@ -7,1 +1,1 @@", .pending, true, some .approved) := by decide +kernel
  obtain ⟨b, second, facts⟩ := Option.map_eq_some_iff.mp seen
  simp only [Prod.mk.injEq, decide_eq_true_eq] at facts
  obtain ⟨text, label, lines, icon⟩ := facts
  refine ⟨b, second, text, label, lines, ?_⟩
  rintro ⟨marks, shows⟩
  have approved : marks.2 = .approved := Option.some.inj (shows.verdictIcon.symm.trans icon)
  rw [shows.label, approved] at label
  cases label

end History

end HunkReview
