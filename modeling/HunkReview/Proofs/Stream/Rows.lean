import HunkReview.Proofs.Diff.Numbering
import HunkReview.Proofs.Diff.OneLine
import HunkReview.Proofs.Diff.Script
import HunkReview.Proofs.Stream.Span
import HunkReview.Stream.Render

/-! Every row that a session is rendered to is sound. The texts that come from the diff fit on lines,
comments are cut at their line feeds, and the spans inside a row are measured on the row's own text. -/
namespace HunkReview
open Text

theorem oneLine_repeated {c : Char} (other : c ≠ '\n') (n : Nat) : OneLine (repeated c n) := by
  rw [repeated, oneLine_ofList]
  exact fun feed => other (List.eq_of_mem_replicate feed).symm

theorem oneLine_padLeft (width : Nat) {text : String} (fits : OneLine text) :
    OneLine (padLeft width text) :=
  oneLine_append.mpr ⟨oneLine_repeated (by decide) _, fits⟩

theorem Staging.oneLine_icon (staging : Staging) : OneLine staging.icon := by
  cases staging <;> decide

theorem Verdict.oneLine_icon (verdict : Verdict) : OneLine verdict.icon := by
  cases verdict <;> decide

theorem Verdict.oneLine_label (verdict : Verdict) : OneLine verdict.label := by
  cases verdict <;> decide

theorem oneLine_getD {text : Option String} (fits : ∀ t, text = some t → OneLine t) {other : String}
    (plain : OneLine other) : OneLine (text.getD other) := by
  cases text with
  | none => exact plain
  | some t => exact fits t rfl

theorem sound_fileBannerRow {file : String} (fits : OneLine file) : (fileBannerRow file).Sound := by
  refine Row.sound_styled _ ?_ _
  simp only [oneLine_append]
  exact ⟨⟨⟨by decide, fits⟩, by decide⟩, oneLine_repeated (by decide) _⟩

theorem sound_fileFooterRow (file : String) : (fileFooterRow file).Sound :=
  Row.sound_styled _ (oneLine_repeated (by decide) _) _

/-! ### Lines -/

theorem oneLine_gutter (l : NumberedLine) : OneLine (gutter l) := by
  have number (n : Option LineNo) : OneLine (padLeft 5 ((n.map LineNo.render).getD "")) := by
    refine oneLine_padLeft 5 (oneLine_getD (fun t written => ?_) (by decide))
    obtain ⟨m, -, rfl⟩ := Option.map_eq_some_iff.mp written
    exact m.oneLine_render
  have marker : OneLine l.kind.marker.toString := by cases l.kind <;> decide
  simp only [gutter, oneLine_append]
  exact ⟨⟨⟨⟨number _, by decide⟩, number _⟩, by decide⟩, marker⟩

theorem sound_lineRow (h : ReviewHunk) {l : NumberedLine} (fits : OneLine l.content) :
    (lineRow h l).Sound :=
  Row.sound_styled _ (oneLine_append.mpr ⟨oneLine_gutter l, fits⟩) _

/-- Shown lines have the contents of the hunk's lines. -/
theorem oneLine_numbered {h : Hunk} (onLines : h.OnLines) :
    ∀ l ∈ h.numbered, OneLine l.content := by
  intro l member
  have body := map_numberFrom h.oldStart h.newStart h.lines
  have inside : DiffLine.mk l.kind l.content ∈ h.lines := by
    rw [← body]
    exact List.mem_map_of_mem member
  exact onLines.lines _ inside

/-- Spans set off parts of the text that the parts of a side spell. -/
theorem Session.isIn_inlineSpans (side : Inline.Edit) (style : Style) (front : String)
    {parts : List Inline.Part} (nonempty : ∀ p ∈ parts, p.text ≠ []) :
    ∀ s ∈ inlineSpans side style front.utf8ByteSize parts,
      s.IsIn (front ++ String.ofList (Inline.partsText side parts)) := by
  induction parts generalizing front with
  | nil => exact fun s member => nomatch member
  | cons p ps ih =>
    have below := fun q inside => nonempty q (List.mem_cons_of_mem p inside)
    have written : String.ofList p.text ≠ "" := by
      rw [Ne, String.ofList_eq_empty_iff]
      exact nonempty p List.mem_cons_self
    have behind : ∀ s ∈ inlineSpans side style
        (front.utf8ByteSize + (String.ofList p.text).utf8ByteSize) ps,
        s.IsIn (front ++ (String.ofList p.text ++ String.ofList (Inline.partsText side ps))) := by
      rw [← String.utf8ByteSize_append, ← String.append_assoc]
      exact ih (front ++ String.ofList p.text) below
    rw [Inline.partsText_cons, inlineSpans]
    by_cases own : p.kind = side
    · have isIn : side.isIn p.kind := by simp [Inline.Edit.isIn, own]
      rw [if_pos own, if_pos isIn, String.ofList_append]
      intro s member
      rcases List.mem_cons.mp member with rfl | member
      · exact Span.isIn_part style front _ written
      · exact behind s member
    · rw [if_neg own]
      by_cases kept : p.kind = .unchanged
      · have isIn : side.isIn p.kind := by simp [Inline.Edit.isIn, kept]
        rw [if_pos kept, if_pos isIn, String.ofList_append]
        exact behind
      · have isOut : ¬side.isIn p.kind := by simp [Inline.Edit.isIn, own, kept]
        rw [if_neg kept, if_neg isOut]
        exact ih front below

theorem Session.sound_changedRow (h : ReviewHunk) {l : NumberedLine} (fits : OneLine l.content)
    (side : Inline.Edit) (style : Style) {parts : List Inline.Part}
    (nonempty : ∀ p ∈ parts, p.text ≠ [])
    (content : Inline.partsText side parts = l.content.toList) :
    (changedRow h l side style parts).Sound := by
  have text : (lineRow h l).text = gutter l ++ String.ofList (Inline.partsText side parts) := by
    rw [content, String.ofList_toList]
    rfl
  refine (sound_lineRow h fits).setOff ?_
  rw [text]
  exact isIn_inlineSpans side style (gutter l) nonempty

/-! ### Comments -/

theorem oneLine_commentTexts (c : Comment) : ∀ text ∈ commentTexts c, OneLine text := by
  have bodies : ∀ body ∈ (pieces c.text.toList).map
      (fun p => String.ofList (dropEndWhile (· == '\r') p)), OneLine body := by
    intro body member
    obtain ⟨p, piece, rfl⟩ := List.mem_map.mp member
    rw [oneLine_ofList]
    exact fun feed => newline_not_mem_pieces piece (dropEndWhile_subset _ p feed)
  have indent : OneLine commentIndent := by decide
  unfold commentTexts
  dsimp only
  split
  · exact fun text member => nomatch member
  · next first rest cut =>
    rw [cut] at bodies
    intro text member
    rcases List.mem_cons.mp member with rfl | member
    · simp only [oneLine_append]
      refine ⟨⟨⟨indent, by decide⟩, ?_⟩, bodies first List.mem_cons_self⟩
      split
      · next s _ =>
        simp only [oneLine_append]
        exact ⟨⟨⟨⟨by decide, s.first.oneLine_render⟩, by decide⟩, s.last.oneLine_render⟩, by decide⟩
      · decide
    · obtain ⟨body, inside, rfl⟩ := List.mem_map.mp member
      simp only [oneLine_append]
      exact ⟨⟨indent, by decide⟩, bodies body (List.mem_cons_of_mem first inside)⟩

theorem sound_commentRows (tag : Tag) (c : Comment) : ∀ r ∈ commentRows tag c, r.Sound := by
  intro r member
  obtain ⟨text, inside, rfl⟩ := List.mem_map.mp member
  exact Row.sound_styled tag (oneLine_commentTexts c text inside) _

theorem sound_commentsRows (tag : Tag) (cs : List Comment) :
    ∀ r ∈ cs.flatMap (commentRows tag), r.Sound := by
  intro r member
  obtain ⟨c, -, inside⟩ := List.mem_flatMap.mp member
  exact sound_commentRows tag c r inside

/-! ### Hunks -/

def AllSound (rows : List Row) : Prop :=
  ∀ r ∈ rows, r.Sound

theorem allSound_nil : AllSound [] :=
  fun _ member => nomatch member

theorem allSound_cons {r : Row} {rows : List Row} (first : r.Sound) (rest : AllSound rows) :
    AllSound (r :: rows) :=
  List.forall_mem_cons.mpr ⟨first, rest⟩

theorem allSound_append {left right : List Row} (front : AllSound left) (back : AllSound right) :
    AllSound (left ++ right) :=
  List.forall_mem_append.mpr ⟨front, back⟩

namespace Session

theorem sound_lineRows (s : Session) (h : ReviewHunk) {ls : List NumberedLine}
    (fit : ∀ l ∈ ls, OneLine l.content) : AllSound (s.lineRows h ls) := by
  have plain (l : NumberedLine) (fits : OneLine l.content) : AllSound (s.plainLineRows h l) :=
    allSound_cons (sound_lineRow h fits) (sound_commentsRows _ _)
  fun_induction lineRows s h ls with
  | case1 => exact allSound_nil
  | case2 l => exact plain l (fit l List.mem_cons_self)
  | case3 l next rest pair ih =>
    have old := fit l List.mem_cons_self
    have new := fit next (List.mem_cons_of_mem l List.mem_cons_self)
    obtain ⟨before, after⟩ := Inline.partsText_diff l.content next.content
    have nonempty := Inline.part_ne_nil (Inline.script l.content.toList next.content.toList).edits
    have change : AllSound (s.changeRows h l next) :=
      allSound_append
        (allSound_cons (sound_changedRow h old _ _ nonempty before) (sound_commentsRows _ _))
        (allSound_cons (sound_changedRow h new _ _ nonempty after) (sound_commentsRows _ _))
    exact allSound_append change (ih fun m inside =>
      fit m (List.mem_cons_of_mem l (List.mem_cons_of_mem next inside)))
  | case4 l next rest apart ih =>
    exact allSound_append (plain l (fit l List.mem_cons_self))
      (ih fun m inside => fit m (List.mem_cons_of_mem l inside))

theorem oneLine_headerText (s : Session) {h : ReviewHunk} (fits : OneLine h.context) :
    OneLine (s.headerText h) := by
  have staging : OneLine (((s.stagingOf h.id).map Staging.icon).getD " ") := by
    refine oneLine_getD (fun t known => ?_) (by decide)
    obtain ⟨staging, -, rfl⟩ := Option.map_eq_some_iff.mp known
    exact staging.oneLine_icon
  have verdict : OneLine (((s.hunk? h.id).map (·.verdict.icon)).getD " ") := by
    refine oneLine_getD (fun t known => ?_) (by decide)
    obtain ⟨first, -, rfl⟩ := Option.map_eq_some_iff.mp known
    exact first.verdict.oneLine_icon
  have context : OneLine (if h.context.isEmpty then "" else " " ++ h.context) := by
    split
    · decide
    · exact oneLine_append.mpr ⟨by decide, fits⟩
  have number := LineNo.oneLine_render
  simp only [headerText, oneLine_append, staging, verdict, context, number, and_true, true_and]
  decide

theorem sound_headerRow (s : Session) {h : ReviewHunk} (fits : OneLine h.context) :
    (s.headerRow h).Sound := by
  have header := s.oneLine_headerText fits
  unfold headerRow
  dsimp only
  split
  · exact Row.sound_styled _ header _
  · have whole : OneLine (s.headerText h ++ "  " ++ "[" ++ h.verdict.label ++ "]") := by
      simp only [oneLine_append]
      exact ⟨⟨⟨⟨header, by decide⟩, by decide⟩, h.verdict.oneLine_label⟩, by decide⟩
    refine (Row.sound_styled _ whole _).setOff fun label member => ?_
    rw [List.mem_singleton.mp member]
    show Span.IsIn _ (s.headerText h ++ "  " ++ "[" ++ h.verdict.label ++ "]")
    -- the label is what stands behind the header's own text
    have part : "[" ++ h.verdict.label ++ "]" ≠ "" := by cases h.verdict <;> decide
    have behind := Span.isIn_part (.verdict h.verdict) (s.headerText h ++ "  ") "" part
    rw [String.append_empty, ← String.utf8ByteSize_append] at behind
    simpa only [String.append_assoc] using behind

theorem sound_hunkCommentRows (s : Session) (h : ReviewHunk) : AllSound (s.hunkCommentRows h) := by
  unfold hunkCommentRows
  split
  · exact allSound_nil
  · refine allSound_cons (Row.sound_styled _ (by decide) _) ?_
    refine allSound_append (sound_commentsRows _ _) ?_
    exact allSound_cons (Row.sound_styled _ (by decide) _) allSound_nil

theorem sound_hunkRows (s : Session) {h : ReviewHunk} (onLines : h.toHunk.OnLines) :
    AllSound (s.hunkRows h) :=
  allSound_cons (s.sound_headerRow onLines.context)
    (allSound_append (s.sound_lineRows h (oneLine_numbered onLines)) (s.sound_hunkCommentRows h))

theorem sound_fileRows (s : Session) (before : Option String) {hs : List ReviewHunk}
    (onLines : ∀ h ∈ hs, h.toHunk.OnLines) : AllSound (s.fileRows before hs) := by
  induction hs generalizing before with
  | nil => exact allSound_nil
  | cons h rest ih =>
    have first := onLines h List.mem_cons_self
    rw [fileRows]
    refine allSound_append (allSound_append (allSound_append ?_ (s.sound_hunkRows first)) ?_) ?_
    · split
      · exact allSound_nil
      · exact allSound_cons (sound_fileBannerRow first.file) allSound_nil
    · split
      · exact allSound_nil
      · exact allSound_cons (sound_fileFooterRow h.file) allSound_nil
    · exact ih (some h.file) fun g inside => onLines g (List.mem_cons_of_mem h inside)

theorem oneLine_summary (s : Session) : OneLine s.summary := by
  simp only [summary, oneLine_append, oneLine_toString, and_true, true_and]
  decide

theorem oneLine_helpBanner : ∀ text ∈ helpBanner, OneLine text := by
  simp only [helpBanner, List.forall_mem_cons, oneLine_append]
  refine ⟨⟨?_, ?_⟩, ⟨?_, ?_⟩, List.forall_mem_nil _⟩
  all_goals decide +kernel

theorem sound_stream (s : Session) (onLines : ∀ h ∈ s.hunks, h.toHunk.OnLines) (showHelp : Bool) :
    AllSound (s.stream showHelp).rows := by
  have files := s.sound_fileRows none onLines
  unfold stream
  dsimp only
  split
  · exact allSound_cons (Row.sound_styled _ (by decide) _) allSound_nil
  · split
    · refine allSound_append (allSound_append (allSound_append ?_ ?_) files) ?_
      · intro r member
        obtain ⟨text, inside, rfl⟩ := List.mem_map.mp member
        exact Row.sound_styled _ (oneLine_helpBanner text inside) _
      · exact allSound_cons (Row.sound_blank _) allSound_nil
      · exact allSound_cons (Row.sound_blank _)
          (allSound_cons (Row.sound_styled _ s.oneLine_summary _) allSound_nil)
    · exact files

end Session

end HunkReview
