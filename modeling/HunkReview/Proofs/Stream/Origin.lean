import HunkReview.Proofs.Stream.Sites

/-! Where the rows of a rendered review come from. Every row that is about a hunk comes from a hunk of
the session: it is the hunk's header, one of its lines, or a comment. The other rows stand around the
hunks' rows: help, and the banners and footers of files. -/
namespace HunkReview

def Tag.isHelp : Tag → Bool
  | helpBanner | helpFooter => true
  | _ => false

/-- All that a row of the rendered session can be. -/
inductive Session.Origin (s : Session) : Row → Prop
  | placeholder (empty : s.hunks = []) (text : String) : Origin s (.styled .placeholder text .help)
  | help (tag : Tag) (isHelp : tag.isHelp) (text : String) : Origin s (.styled tag text .help)
  | banner (h : ReviewHunk) (inside : h ∈ s.hunks) : Origin s (fileBannerRow h.file)
  | footer (h : ReviewHunk) (inside : h ∈ s.hunks) : Origin s (fileFooterRow h.file)
  | header (h : ReviewHunk) (inside : h ∈ s.hunks) : Origin s (s.headerRow h)
  | line (h : ReviewHunk) (inside : h ∈ s.hunks) (site : Site) (there : site ∈ h.sites) :
    Origin s (site.row h)
  | lineComment (h : ReviewHunk) (inside : h ∈ s.hunks) (l : NumberedLine) (there : l ∈ h.numbered)
    (text : String) : Origin s (.styled (.lineComment h.id l) text .comment)
  | border (h : ReviewHunk) (inside : h ∈ s.hunks) (text : String) :
    Origin s (.styled (.commentBorder h.id) text .border)
  | hunkComment (h : ReviewHunk) (inside : h ∈ s.hunks) (text : String) :
    Origin s (.styled (.hunkComment h.id) text .comment)

theorem exists_styled_of_mem_comments {tag : Tag} {cs : List Comment} {r : Row}
    (member : r ∈ cs.flatMap (commentRows tag)) : ∃ text, r = .styled tag text .comment := by
  obtain ⟨c, -, inside⟩ := List.mem_flatMap.mp member
  obtain ⟨text, -, rfl⟩ := List.mem_map.mp inside
  exact ⟨text, rfl⟩

theorem line_mem_numbered {h : ReviewHunk} {site : Site} (there : site ∈ h.sites) :
    site.line ∈ h.numbered := by
  have lines : h.sites.map Site.line = h.numbered := map_line_sitesFrom none h.numbered
  exact lines ▸ List.mem_map_of_mem there

namespace Session

@[simp] theorem tag_headerRow (s : Session) (h : ReviewHunk) :
    (s.headerRow h).tag = .hunkHeader h.id := by
  unfold headerRow
  dsimp only
  split <;> rfl

theorem mem_hunkCommentRows {s : Session} {h : ReviewHunk} {r : Row}
    (member : r ∈ s.hunkCommentRows h) :
    (∃ text, r = .styled (.commentBorder h.id) text .border) ∨
      ∃ text, r = .styled (.hunkComment h.id) text .comment := by
  unfold hunkCommentRows at member
  split at member
  · cases member
  · simp only [List.cons_append, List.mem_cons, List.mem_append, List.not_mem_nil, or_false]
      at member
    rcases member with rfl | inside | rfl
    · exact .inl ⟨_, rfl⟩
    · exact .inr (exists_styled_of_mem_comments inside)
    · exact .inl ⟨_, rfl⟩

theorem tag_of_mem_siteRows {s : Session} {h : ReviewHunk} {site : Site} {r : Row}
    (member : r ∈ s.siteRows h site) :
    r.tag = .diffLine h.id site.line ∨ r.tag = .lineComment h.id site.line := by
  rcases List.mem_cons.mp member with rfl | comment
  · exact .inl (Site.tag_row h site)
  · obtain ⟨text, rfl⟩ := exists_styled_of_mem_comments comment
    exact .inr rfl

theorem hunk?_of_mem_hunkRows {s : Session} {h : ReviewHunk} {r : Row} (member : r ∈ s.hunkRows h) :
    r.tag.hunk? = some h.id := by
  rw [hunkRows_eq_sites, List.cons_append, List.mem_cons, List.mem_append] at member
  rcases member with rfl | line | comment
  · rw [tag_headerRow]
    rfl
  · obtain ⟨site, -, shown⟩ := List.mem_flatMap.mp line
    rcases tag_of_mem_siteRows shown with tag | tag <;> rw [tag] <;> rfl
  · rcases mem_hunkCommentRows comment with ⟨text, rfl⟩ | ⟨text, rfl⟩ <;> rfl

/-! ### The rows around the hunks -/

/-- Around a hunk's rows stand a banner and a footer at most. -/
theorem fileRows_cons (before : Option String) (g : ReviewHunk) (rest : List ReviewHunk) :
    ∃ top bottom, (∀ r ∈ top ++ bottom, r.tag.hunk? = none) ∧ ∀ s : Session,
      s.fileRows before (g :: rest) =
        top ++ s.hunkRows g ++ (bottom ++ s.fileRows (some g.file) rest) := by
  refine ⟨if before = some g.file then [] else [fileBannerRow g.file],
    if rest.head?.map (·.file) = some g.file then [] else [fileFooterRow g.file], ?_, ?_⟩
  · intro r member
    simp only [List.mem_append, List.mem_ite_nil_left, List.mem_singleton] at member
    rcases member with ⟨-, rfl⟩ | ⟨-, rfl⟩ <;> rfl
  · intro s
    rw [← List.append_assoc]
    rfl

def topRows (showHelp : Bool) : List Row :=
  if showHelp then helpBanner.map (.styled .helpBanner · .help) ++ [⟨.helpBanner, "", []⟩] else []

def footRows (s : Session) (showHelp : Bool) : List Row :=
  if showHelp then [⟨.helpFooter, "", []⟩, .styled .helpFooter s.summary .help] else []

theorem rows_stream_empty {s : Session} (empty : s.hunks = []) (showHelp : Bool) :
    (s.stream showHelp).rows = [.styled .placeholder "No changes to review." .help] := by
  rw [stream, if_pos (List.isEmpty_iff.mpr empty)]

theorem rows_stream {s : Session} (filled : s.hunks ≠ []) (showHelp : Bool) :
    (s.stream showHelp).rows = topRows showHelp ++ s.fileRows none s.hunks ++ s.footRows showHelp := by
  have nonempty : ¬s.hunks.isEmpty := fun empty => filled (List.isEmpty_iff.mp empty)
  cases showHelp with
  | false => simp only [stream, if_neg nonempty, topRows, footRows, Bool.false_eq_true, if_false,
      List.nil_append, List.append_nil]
  | true => simp only [stream, if_neg nonempty, topRows, footRows, if_true]

theorem exists_help_of_mem_topRows {showHelp : Bool} {r : Row} (member : r ∈ topRows showHelp) :
    ∃ text, r = .styled .helpBanner text .help := by
  cases showHelp with
  | false => cases member
  | true =>
    rcases List.mem_append.mp member with line | gap
    · obtain ⟨text, -, rfl⟩ := List.mem_map.mp line
      exact ⟨text, rfl⟩
    · exact ⟨"", List.mem_singleton.mp gap⟩

theorem exists_help_of_mem_footRows {s : Session} {showHelp : Bool} {r : Row}
    (member : r ∈ s.footRows showHelp) : ∃ text, r = .styled .helpFooter text .help := by
  cases showHelp with
  | false => cases member
  | true =>
    rcases List.mem_cons.mp member with rfl | summary
    · exact ⟨"", rfl⟩
    · exact ⟨s.summary, List.mem_singleton.mp summary⟩

/-! ### Picking rows of hunks -/

section

variable {keep : Row → Bool} (inHunks : ∀ r, r.tag.hunk? = none → keep r = false)

include inHunks

theorem filter_outside {rows : List Row} (outside : ∀ r ∈ rows, r.tag.hunk? = none) :
    rows.filter keep = [] := by
  rw [List.filter_eq_nil_iff]
  intro r member
  rw [inHunks r (outside r member)]
  exact Bool.false_ne_true

theorem filter_fileRows (s : Session) (before : Option String) (hs : List ReviewHunk) :
    (s.fileRows before hs).filter keep = hs.flatMap fun h => (s.hunkRows h).filter keep := by
  induction hs generalizing before with
  | nil => rfl
  | cons g rest ih =>
    obtain ⟨top, bottom, outside, rows⟩ := fileRows_cons before g rest
    obtain ⟨above, below⟩ := List.forall_mem_append.mp outside
    rw [rows, List.filter_append, List.filter_append, List.filter_append,
      filter_outside inHunks above, filter_outside inHunks below, ih, List.nil_append,
      List.nil_append, List.flatMap_cons]

/-- Rows that are only in hunks are picked hunk by hunk. -/
theorem filter_stream (s : Session) (showHelp : Bool) :
    (s.stream showHelp).rows.filter keep = s.hunks.flatMap fun h => (s.hunkRows h).filter keep := by
  by_cases empty : s.hunks = []
  · have outside : ∀ r ∈ (s.stream showHelp).rows, r.tag.hunk? = none := by
      rw [rows_stream_empty empty]
      exact List.forall_mem_singleton.mpr rfl
    rw [filter_outside inHunks outside, empty, List.flatMap_nil]
  · have top : ∀ r ∈ topRows showHelp, r.tag.hunk? = none := by
      intro r member
      obtain ⟨text, rfl⟩ := exists_help_of_mem_topRows member
      rfl
    have foot : ∀ r ∈ s.footRows showHelp, r.tag.hunk? = none := by
      intro r member
      obtain ⟨text, rfl⟩ := exists_help_of_mem_footRows member
      rfl
    rw [rows_stream empty, List.filter_append, List.filter_append, filter_outside inHunks top,
      filter_outside inHunks foot, filter_fileRows inHunks, List.nil_append, List.append_nil]

end

/-! ### All rows -/

theorem origin_of_mem_hunkRows {s : Session} {h : ReviewHunk} (inside : h ∈ s.hunks) {r : Row}
    (member : r ∈ s.hunkRows h) : s.Origin r := by
  rw [hunkRows_eq_sites, List.cons_append, List.mem_cons, List.mem_append] at member
  rcases member with rfl | line | comment
  · exact .header h inside
  · obtain ⟨site, there, shown⟩ := List.mem_flatMap.mp line
    rcases List.mem_cons.mp shown with rfl | comment
    · exact .line h inside site there
    · obtain ⟨text, rfl⟩ := exists_styled_of_mem_comments comment
      exact .lineComment h inside site.line (line_mem_numbered there) text
  · rcases mem_hunkCommentRows comment with ⟨text, rfl⟩ | ⟨text, rfl⟩
    · exact .border h inside text
    · exact .hunkComment h inside text

theorem origin_of_mem_fileRows {s : Session} {before : Option String} {hs : List ReviewHunk}
    (inside : ∀ h ∈ hs, h ∈ s.hunks) {r : Row} (member : r ∈ s.fileRows before hs) :
    s.Origin r := by
  induction hs generalizing before with
  | nil => cases member
  | cons h rest ih =>
    obtain ⟨here, below⟩ := List.forall_mem_cons.mp inside
    simp only [fileRows, List.mem_append, List.mem_ite_nil_left, List.mem_singleton] at member
    rcases member with ((⟨-, rfl⟩ | own) | ⟨-, rfl⟩) | later
    · exact .banner h here
    · exact origin_of_mem_hunkRows here own
    · exact .footer h here
    · exact ih below later

theorem origin_of_mem_stream {s : Session} {showHelp : Bool} {r : Row}
    (member : r ∈ (s.stream showHelp).rows) : s.Origin r := by
  by_cases empty : s.hunks = []
  · rw [rows_stream_empty empty, List.mem_singleton] at member
    obtain rfl := member
    exact .placeholder empty _
  · rw [rows_stream empty, List.mem_append, List.mem_append] at member
    rcases member with (top | files) | foot
    · obtain ⟨text, rfl⟩ := exists_help_of_mem_topRows top
      exact .help .helpBanner rfl text
    · exact origin_of_mem_fileRows (fun _ given => given) files
    · obtain ⟨text, rfl⟩ := exists_help_of_mem_footRows foot
      exact .help .helpFooter rfl text

/-- A row about a hunk is about a hunk of the session. -/
theorem Origin.hunk_mem {s : Session} {r : Row} (origin : s.Origin r) {id : HunkId}
    (about : r.tag.hunk? = some id) : ∃ h ∈ s.hunks, h.id = id := by
  cases origin with
  | placeholder empty text => cases about
  | help tag isHelp text => cases tag <;> cases isHelp <;> cases about
  | banner h inside => cases about
  | footer h inside => cases about
  | header h inside =>
    rw [tag_headerRow] at about
    exact ⟨h, inside, Option.some.inj about⟩
  | line h inside site there =>
    rw [Site.tag_row] at about
    exact ⟨h, inside, Option.some.inj about⟩
  | lineComment h inside l there text => exact ⟨h, inside, Option.some.inj about⟩
  | border h inside text => exact ⟨h, inside, Option.some.inj about⟩
  | hunkComment h inside text => exact ⟨h, inside, Option.some.inj about⟩

end Session

end HunkReview
