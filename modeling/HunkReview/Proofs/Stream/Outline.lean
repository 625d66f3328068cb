import HunkReview.Proofs.Stream.Origin
import Mathlib.Data.List.Chain

/-! What a rendered review shows of the diff. Comments and help apart, its rows are one section for each
run of neighbouring hunks of one file: a banner, each hunk's header followed by the hunk's numbered
lines, and a footer. -/
namespace HunkReview

def Tag.isFileBanner : Tag → Bool
  | fileBanner _ => true
  | _ => false

def Tag.isFileFooter : Tag → Bool
  | fileFooter _ => true
  | _ => false

def Tag.header? : Tag → Option HunkId
  | hunkHeader id => some id
  | _ => none

def Tag.shownLine? : Tag → Option (HunkId × NumberedLine)
  | diffLine id l => some (id, l)
  | _ => none

def Tag.isDiff : Tag → Bool
  | fileBanner _ | fileFooter _ | hunkHeader _ | diffLine _ _ => true
  | _ => false

def outlineOf (rows : List Row) : List Tag :=
  (rows.map (·.tag)).filter Tag.isDiff

def Stream.tags (t : Stream) : List Tag :=
  t.rows.map (·.tag)

/-! ### Runs of hunks -/

structure FileRun where
  file : String
  hunks : List ReviewHunk
  nonempty : hunks ≠ []
  ofFile : ∀ h ∈ hunks, h.file = file

/-- The runs are all the hunks in order, and none of them could be longer. -/
structure AreRunsOf (runs : List FileRun) (hs : List ReviewHunk) : Prop where
  cover : runs.flatMap (·.hunks) = hs
  maximal : (runs.map (·.file)).IsChain (· ≠ ·)

def FileRun.single (h : ReviewHunk) : FileRun :=
  ⟨h.file, [h], by simp, by simp⟩

def FileRun.extend (r : FileRun) (h : ReviewHunk) (same : h.file = r.file) : FileRun :=
  ⟨r.file, h :: r.hunks, by simp, List.forall_mem_cons.mpr ⟨same, r.ofFile⟩⟩

def prependHunk (h : ReviewHunk) : List FileRun → List FileRun
  | [] => [.single h]
  | r :: rs => if same : h.file = r.file then r.extend h same :: rs else .single h :: r :: rs

/-- The maximal runs of neighbouring hunks of one file. -/
def fileRuns : List ReviewHunk → List FileRun
  | [] => []
  | h :: hs => prependHunk h (fileRuns hs)

theorem prependHunk_same {h : ReviewHunk} {r : FileRun} (same : h.file = r.file) (rs : List FileRun) :
    prependHunk h (r :: rs) = r.extend h same :: rs :=
  dif_pos same

theorem prependHunk_other {h : ReviewHunk} {r : FileRun} (other : h.file ≠ r.file)
    (rs : List FileRun) : prependHunk h (r :: rs) = .single h :: r :: rs :=
  dif_neg other

theorem file_head_prependHunk (h : ReviewHunk) (runs : List FileRun) :
    (prependHunk h runs).head?.map (·.file) = some h.file := by
  cases runs with
  | nil => rfl
  | cons r rs =>
    by_cases same : h.file = r.file
    · rw [prependHunk_same same]
      exact congrArg some same.symm
    · rw [prependHunk_other same]
      rfl

/-- The first run is of the first hunk's file. -/
theorem file_head_fileRuns (hs : List ReviewHunk) :
    (fileRuns hs).head?.map (·.file) = hs.head?.map (·.file) := by
  cases hs with
  | nil => rfl
  | cons h hs => exact file_head_prependHunk h (fileRuns hs)

theorem areRunsOf_prependHunk {h : ReviewHunk} {runs : List FileRun} {hs : List ReviewHunk}
    (areRuns : AreRunsOf runs hs) : AreRunsOf (prependHunk h runs) (h :: hs) := by
  obtain ⟨cover, maximal⟩ := areRuns
  cases runs with
  | nil => exact ⟨by simp [prependHunk, FileRun.single, ← cover], by simp [prependHunk]⟩
  | cons r rs =>
    by_cases same : h.file = r.file
    · rw [prependHunk_same same]
      exact ⟨by simp [FileRun.extend, ← cover], maximal⟩
    · rw [prependHunk_other same]
      exact ⟨by simp [FileRun.single, ← cover], List.isChain_cons_cons.mpr ⟨same, maximal⟩⟩

theorem areRunsOf_fileRuns (hs : List ReviewHunk) : AreRunsOf (fileRuns hs) hs := by
  induction hs with
  | nil => exact ⟨rfl, by simp [fileRuns]⟩
  | cons h hs ih => exact areRunsOf_prependHunk ih

theorem length_prependHunk (h : ReviewHunk) (runs : List FileRun) :
    (prependHunk h runs).length =
      if runs.head?.map (·.file) = some h.file then runs.length else runs.length + 1 := by
  cases runs with
  | nil => rfl
  | cons r rs =>
    by_cases same : h.file = r.file
    · simp [prependHunk_same same, same]
    · simp [prependHunk_other same, Ne.symm same]

theorem length_fileRuns (hs : List ReviewHunk) :
    (fileRuns hs).length = Session.countRuns (hs.map (·.file)) := by
  induction hs with
  | nil => rfl
  | cons h hs ih =>
    rw [fileRuns, length_prependHunk, file_head_fileRuns, ih]
    cases hs with
    | nil => rfl
    | cons g hs =>
      by_cases same : h.file = g.file
      · simp [Session.countRuns, same]
      · simp [Session.countRuns, same, Ne.symm same]

/-! ### Outlines -/

def ReviewHunk.outline (h : ReviewHunk) : List Tag :=
  .hunkHeader h.id :: h.numbered.map (.diffLine h.id)

/-- A section: the run's hunks between a banner and a footer. -/
def FileRun.outline (r : FileRun) : List Tag :=
  .fileBanner r.file :: r.hunks.flatMap ReviewHunk.outline ++ [.fileFooter r.file]

theorem outlineOf_append (left right : List Row) :
    outlineOf (left ++ right) = outlineOf left ++ outlineOf right := by
  simp [outlineOf]

theorem outlineOf_cons {r : Row} (shown : r.tag.isDiff) (rows : List Row) :
    outlineOf (r :: rows) = r.tag :: outlineOf rows := by
  rw [outlineOf, List.map_cons, List.filter_cons_of_pos shown, outlineOf]

theorem outlineOf_eq_nil {rows : List Row} (other : ∀ r ∈ rows, r.tag.isDiff = false) :
    outlineOf rows = [] := by
  simpa [outlineOf] using other

namespace Session

theorem outlineOf_siteRows (s : Session) (h : ReviewHunk) (site : Site) :
    outlineOf (s.siteRows h site) = [.diffLine h.id site.line] := by
  have comments : outlineOf (s.lineCommentRows h site.line) = [] := by
    refine outlineOf_eq_nil fun r member => ?_
    obtain ⟨text, rfl⟩ := exists_styled_of_mem_comments member
    rfl
  rw [siteRows, outlineOf_cons (by rw [Site.tag_row]; rfl), Site.tag_row, comments]

theorem outlineOf_hunkRows (s : Session) (h : ReviewHunk) :
    outlineOf (s.hunkRows h) = h.outline := by
  have lines (sites : List Site) : outlineOf (sites.flatMap (s.siteRows h)) =
      (sites.map Site.line).map (.diffLine h.id) := by
    induction sites with
    | nil => rfl
    | cons site sites ih =>
      rw [List.flatMap_cons, outlineOf_append, outlineOf_siteRows, ih]
      rfl
  have comments : outlineOf (s.hunkCommentRows h) = [] := by
    refine outlineOf_eq_nil fun r member => ?_
    rcases mem_hunkCommentRows member with ⟨text, rfl⟩ | ⟨text, rfl⟩ <;> rfl
  have header : (s.headerRow h).tag.isDiff := by rw [tag_headerRow]; rfl
  rw [hunkRows_eq_sites, List.cons_append, outlineOf_cons header, tag_headerRow, outlineOf_append,
    lines, comments, ReviewHunk.sites, map_line_sitesFrom, List.append_nil, ReviewHunk.outline]

/-- Hunks that go on with the file before them lack only their banner. -/
theorem fileRows_none_of_same (s : Session) {file : String} {hs : List ReviewHunk}
    (same : hs.head?.map (·.file) = some file) :
    s.fileRows none hs = fileBannerRow file :: s.fileRows (some file) hs := by
  cases hs with
  | nil => simp at same
  | cons h hs =>
    obtain rfl : h.file = file := by simpa using same
    simp [fileRows]

theorem fileRows_of_other (s : Session) {file : String} {hs : List ReviewHunk}
    (other : hs.head?.map (·.file) ≠ some file) :
    s.fileRows (some file) hs = s.fileRows none hs := by
  cases hs with
  | nil => rfl
  | cons h hs =>
    have differs : file ≠ h.file := fun same => other (by simp [same])
    simp [fileRows, differs]

theorem outlineOf_fileRows (s : Session) (hs : List ReviewHunk) :
    outlineOf (s.fileRows none hs) = (fileRuns hs).flatMap FileRun.outline := by
  induction hs with
  | nil => rfl
  | cons h hs ih =>
    have head := file_head_fileRuns hs
    have opened : outlineOf (s.fileRows none (h :: hs)) =
        .fileBanner h.file :: h.outline ++
          (if hs.head?.map (·.file) = some h.file then [] else [.fileFooter h.file]) ++
          outlineOf (s.fileRows (some h.file) hs) := by
      simp only [fileRows, outlineOf_append, outlineOf_hunkRows]
      congr 2
      split <;> rfl
    rw [opened, fileRuns]
    cases runs : fileRuns hs with
    | nil =>
      have last : hs.head?.map (·.file) ≠ some h.file := by simp [← head, runs]
      rw [if_neg last, s.fileRows_of_other last, ih, runs]
      simp [prependHunk, FileRun.single, FileRun.outline]
    | cons r rs =>
      have first : hs.head?.map (·.file) = some r.file := by simp [← head, runs]
      by_cases same : h.file = r.file
      · -- the banner of the rest now stands before this hunk
        have goesOn : hs.head?.map (·.file) = some h.file := same ▸ first
        rw [s.fileRows_none_of_same goesOn, outlineOf_cons rfl, runs, List.flatMap_cons,
          FileRun.outline, List.cons_append, List.cons_append] at ih
        have rest := (List.cons.inj ih).2
        rw [if_pos goesOn, prependHunk_same same, rest, List.append_nil, List.flatMap_cons]
        simp [FileRun.outline, FileRun.extend, same]
      · have ends : hs.head?.map (·.file) ≠ some h.file := by simp [first, Ne.symm same]
        rw [if_neg ends, s.fileRows_of_other ends, ih, runs, prependHunk_other same]
        simp [FileRun.single, FileRun.outline]

theorem outlineOf_stream (s : Session) (showHelp : Bool) :
    outlineOf (s.stream showHelp).rows = (fileRuns s.hunks).flatMap FileRun.outline := by
  by_cases empty : s.hunks = []
  · rw [rows_stream_empty empty, empty]
    rfl
  · have top : outlineOf (topRows showHelp) = [] := by cases showHelp <;> rfl
    have foot : outlineOf (s.footRows showHelp) = [] := by cases showHelp <;> rfl
    rw [rows_stream empty, outlineOf_append, outlineOf_append, top, foot, outlineOf_fileRows,
      List.nil_append, List.append_nil]

end Session

/-! ### Projections of the outline -/

/-- What is read off the diff's rows alone is read off the outline. -/
theorem filterMap_tags {α : Type} {read : Tag → Option α}
    (ofDiff : ∀ tag, (read tag).isSome → tag.isDiff) (t : Stream) :
    t.tags.filterMap read = (outlineOf t.rows).filterMap read := by
  rw [outlineOf, List.filterMap_filter, Stream.tags]
  congr 1
  funext tag
  cases found : read tag with
  | none => simp
  | some a =>
    have shown := ofDiff tag (by rw [found]; rfl)
    simp [shown]

theorem countP_tags {counted : Tag → Bool} (ofDiff : ∀ tag, counted tag → tag.isDiff) (t : Stream) :
    t.tags.countP counted = (outlineOf t.rows).countP counted := by
  rw [outlineOf, List.countP_filter, Stream.tags]
  congr 1
  funext tag
  cases found : counted tag with
  | false => rfl
  | true => simp [ofDiff tag found]

/-- What is read off the hunks' outlines alone is read off hunk by hunk. -/
theorem Session.filterMap_tags_stream {α : Type} {read : Tag → Option α} {own : ReviewHunk → List α}
    (ofDiff : ∀ tag, (read tag).isSome → tag.isDiff) (banner : ∀ file, read (.fileBanner file) = none)
    (footer : ∀ file, read (.fileFooter file) = none)
    (hunk : ∀ h : ReviewHunk, h.outline.filterMap read = own h) (s : Session) (showHelp : Bool) :
    (s.stream showHelp).tags.filterMap read = s.hunks.flatMap own := by
  have ofRun (r : FileRun) : r.outline.filterMap read = r.hunks.flatMap own := by
    rw [FileRun.outline, List.cons_append, List.filterMap_cons_none (banner r.file),
      List.filterMap_append, List.filterMap_flatMap]
    simp [footer, hunk]
  rw [filterMap_tags ofDiff, outlineOf_stream, List.filterMap_flatMap]
  simp only [ofRun]
  rw [← List.flatMap_assoc, (areRunsOf_fileRuns s.hunks).cover]

/-- What is counted once in each section is counted as often as there are runs of one file. -/
theorem Session.countP_tags_stream {counted : Tag → Bool} (ofDiff : ∀ tag, counted tag → tag.isDiff)
    (ends : ∀ file, [Tag.fileBanner file, .fileFooter file].countP counted = 1)
    (hunk : ∀ h : ReviewHunk, h.outline.countP counted = 0) (s : Session) (showHelp : Bool) :
    (s.stream showHelp).tags.countP counted = s.fileCount := by
  have once (runs : List FileRun) : (runs.flatMap FileRun.outline).countP counted = runs.length := by
    induction runs with
    | nil => rfl
    | cons r rs ih =>
      have hunks : (r.hunks.flatMap ReviewHunk.outline).countP counted = 0 := by
        simp [List.countP_flatMap, Function.comp_def, hunk]
      have borders := ends r.file
      rw [List.countP_cons] at borders
      rw [List.flatMap_cons, List.countP_append, ih, FileRun.outline, List.countP_append,
        List.countP_cons, hunks, List.length_cons]
      omega
  rw [countP_tags ofDiff, outlineOf_stream, once]
  exact length_fileRuns s.hunks

theorem ReviewHunk.filterMap_header?_outline (h : ReviewHunk) :
    h.outline.filterMap Tag.header? = [h.id] := by
  simp [outline, Tag.header?, List.filterMap_map, Function.comp_def]

theorem ReviewHunk.filterMap_shownLine?_outline (h : ReviewHunk) :
    h.outline.filterMap Tag.shownLine? = h.numbered.map (h.id, ·) := by
  rw [outline, List.filterMap_cons_none rfl, List.filterMap_map]
  exact congrFun List.filterMap_eq_map _

/-- The lines shown are the lines of the hunks. -/
theorem Session.filterMap_shownLine?_stream (s : Session) (showHelp : Bool) :
    (s.stream showHelp).tags.filterMap Tag.shownLine? =
      s.hunks.flatMap fun h => h.numbered.map (h.id, ·) := by
  refine s.filterMap_tags_stream ?_ (fun _ => rfl) (fun _ => rfl)
    ReviewHunk.filterMap_shownLine?_outline showHelp
  intro tag
  cases tag <;> simp [Tag.shownLine?, Tag.isDiff]

/-! ### The whole diff -/

/-- The stream shows the diff under review once and in order: the headers are those of the hunks, the
lines are the hunks' numbered lines, and the sections are the runs of hunks of one file. -/
structure Session.ShowsDiff (s : Session) (t : Stream) : Prop where
  headers : t.tags.filterMap Tag.header? = s.hunks.map ReviewHunk.id
  lines : t.tags.filterMap Tag.shownLine? = s.hunks.flatMap fun h => h.numbered.map (h.id, ·)
  texts : ∀ r ∈ t.rows, ∀ id l, r.tag = .diffLine id l → r.text = gutter l ++ l.content
  sections : ∃ runs, AreRunsOf runs s.hunks ∧ outlineOf t.rows = runs.flatMap FileRun.outline
  banners : t.tags.countP Tag.isFileBanner = s.fileCount
  footers : t.tags.countP Tag.isFileFooter = s.fileCount
  empty : s.hunks = [] → t.tags = [.placeholder]
  filled : .placeholder ∈ t.tags → s.hunks = []

theorem Session.Origin.text_line {s : Session} {r : Row} (origin : s.Origin r) {id : HunkId}
    {l : NumberedLine} (line : r.tag = .diffLine id l) : r.text = gutter l ++ l.content := by
  cases origin with
  | line h inside site there =>
    rw [Site.tag_row] at line
    cases line
    exact site.text_row h
  | header h inside =>
    rw [tag_headerRow] at line
    cases line
  | help tag isHelp text =>
    cases line
    cases isHelp
  | placeholder | banner | footer | lineComment | border | hunkComment => cases line

theorem Session.Origin.empty_of_placeholder {s : Session} {r : Row} (origin : s.Origin r)
    (placeholder : r.tag = .placeholder) : s.hunks = [] := by
  cases origin with
  | placeholder empty text => exact empty
  | line h inside site there =>
    rw [Site.tag_row] at placeholder
    cases placeholder
  | header h inside =>
    rw [tag_headerRow] at placeholder
    cases placeholder
  | help tag isHelp text =>
    cases placeholder
    cases isHelp
  | banner | footer | lineComment | border | hunkComment => cases placeholder

/-- Rendering shows all of the diff and nothing twice, whatever the marks and the comments are. -/
theorem Session.showsDiff_render (s : Session) (showHelp : Bool) :
    s.ShowsDiff (s.render showHelp).2 := by
  have origin : ∀ r ∈ (s.render showHelp).2.rows, s.Origin r := fun _ => origin_of_mem_stream
  constructor
  case headers =>
    refine (s.filterMap_tags_stream ?_ (fun _ => rfl) (fun _ => rfl)
      ReviewHunk.filterMap_header?_outline showHelp).trans (List.flatMap_pure_eq_map _ _)
    intro tag
    cases tag <;> simp [Tag.header?, Tag.isDiff]
  case lines => exact s.filterMap_shownLine?_stream showHelp
  case texts => exact fun r member id l => (origin r member).text_line
  case sections => exact ⟨fileRuns s.hunks, areRunsOf_fileRuns s.hunks, s.outlineOf_stream showHelp⟩
  case banners =>
    refine s.countP_tags_stream ?_ (fun _ => rfl) ?_ showHelp
    · intro tag
      cases tag <;> simp [Tag.isFileBanner, Tag.isDiff]
    · simp [ReviewHunk.outline, Tag.isFileBanner]
  case footers =>
    refine s.countP_tags_stream ?_ (fun _ => rfl) ?_ showHelp
    · intro tag
      cases tag <;> simp [Tag.isFileFooter, Tag.isDiff]
    · simp [ReviewHunk.outline, Tag.isFileFooter]
  case empty =>
    intro none
    simp [Stream.tags, render, stream, none, Row.styled]
  case filled =>
    intro member
    obtain ⟨r, inside, placeholder⟩ := List.mem_map.mp member
    exact (origin r inside).empty_of_placeholder placeholder

end HunkReview
