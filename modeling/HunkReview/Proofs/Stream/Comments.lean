import HunkReview.Proofs.Review.Pinned
import HunkReview.Proofs.Review.Target
import HunkReview.Proofs.Stream.Insertion

/-! A comment is shown where it was written and nowhere else: under its line and the comments that the
line has, or at the end of its hunk between borders. -/
namespace HunkReview

/-- The row shows a piece of a comment's text, up to carriage returns at the piece's end. -/
structure ShowsPiece (tag : Tag) (piece : List Char) (r : Row) : Prop where
  tag : r.tag = tag
  text : ∃ lead, r.text = lead ++ String.ofList (Text.dropEndWhile (· == '\r') piece)

/-- The rows show a text, one row for each stretch between line feeds. -/
def ShowsText (tag : Tag) (text : String) (rows : List Row) : Prop :=
  List.Forall₂ (ShowsPiece tag) (Text.pieces text.toList) rows

theorem showsText_commentRows (tag : Tag) (c : Comment) :
    ShowsText tag c.text (commentRows tag c) := by
  unfold ShowsText commentRows commentTexts
  cases Text.pieces c.text.toList with
  | nil => exact .nil
  | cons first rest =>
    refine .cons ⟨rfl, _, rfl⟩ ?_
    simp only [List.map_map]
    rw [List.forall₂_map_right_iff, List.forall₂_same]
    exact fun piece _ => ⟨rfl, _, rfl⟩

theorem commentRows_ne_nil (tag : Tag) (c : Comment) : commentRows tag c ≠ [] := by
  intro empty
  have shows := showsText_commentRows tag c
  rw [empty, ShowsText, List.forall₂_nil_right_iff] at shows
  exact Text.pieces_ne_nil _ shows

theorem Apart.tag_ne {id : HunkId} {rows : List Row} (apart : Apart id rows) {tag : Tag}
    (about : tag.hunk? = some id) {r : Row} (inside : r ∈ rows) : r.tag ≠ tag := by
  intro same
  exact apart r inside (same ▸ about)

namespace Insertion

/-- The text stands under the row of a line and the comments there. Neither the line nor comments on
it are anywhere else. -/
structure UnderLine (id : HunkId) (l : NumberedLine) (text : String) (i : Insertion) : Prop where
  shows : ShowsText (.lineComment id l) text i.block
  place : ∃ above row comments, i.before = above ++ row :: comments ∧ row.tag = .diffLine id l ∧
    (∀ r ∈ comments, r.tag = .lineComment id l) ∧
    ∀ r ∈ above ++ i.after, r.tag ≠ .diffLine id l ∧ r.tag ≠ .lineComment id l

def NoHunkComments (id : HunkId) (rows : List Row) : Prop :=
  ∀ r ∈ rows, r.tag ≠ .hunkComment id ∧ r.tag ≠ .commentBorder id

/-- The text ends the rows of a hunk: between two borders, or before the second of the borders that are
there already. -/
inductive EndsHunk (id : HunkId) (text : String) : Insertion → Prop
  | first {above rows below : List Row} {last top bottom : Row} (own : last.tag.hunk? = some id)
    (none : NoHunkComments id (above ++ [last])) (opens : top.tag = .commentBorder id)
    (shows : ShowsText (.hunkComment id) text rows) (closes : bottom.tag = .commentBorder id)
    (ended : Apart id below) : EndsHunk id text ⟨above ++ [last], top :: rows ++ [bottom], below⟩
  | further {above comments rows below : List Row} {top bottom : Row} (none : NoHunkComments id above)
    (opens : top.tag = .commentBorder id) (some : comments ≠ [])
    (others : ∀ r ∈ comments, r.tag = .hunkComment id)
    (shows : ShowsText (.hunkComment id) text rows) (closes : bottom.tag = .commentBorder id)
    (ended : Apart id below) : EndsHunk id text ⟨above ++ top :: comments, rows, bottom :: below⟩

theorem UnderLine.within {i : Insertion} {id : HunkId} {l : NumberedLine} {text : String}
    (under : i.UnderLine id l text) {top below : List Row} (clearTop : Apart id top)
    (clearBelow : Apart id below) : (i.within top below).UnderLine id l text := by
  obtain ⟨shows, above, row, comments, split, line, onLine, elsewhere⟩ := under
  refine ⟨shows, top ++ above, row, comments, by simp [Insertion.within, split], line, onLine, ?_⟩
  have clear {rows : List Row} (apart : Apart id rows) {r : Row} (inside : r ∈ rows) :
      r.tag ≠ .diffLine id l ∧ r.tag ≠ .lineComment id l :=
    ⟨apart.tag_ne rfl inside, apart.tag_ne rfl inside⟩
  intro r member
  simp only [Insertion.within, List.mem_append] at member
  rcases member with (inTop | inAbove) | inAfter | inBelow
  · exact clear clearTop inTop
  · exact elsewhere r (List.mem_append_left _ inAbove)
  · exact elsewhere r (List.mem_append_right _ inAfter)
  · exact clear clearBelow inBelow

theorem EndsHunk.within {i : Insertion} {id : HunkId} {text : String} (ends : i.EndsHunk id text)
    {top under : List Row} (clearTop : Apart id top) (clearUnder : Apart id under) :
    (i.within top under).EndsHunk id text := by
  have clear : NoHunkComments id top :=
    fun r inside => ⟨clearTop.tag_ne rfl inside, clearTop.tag_ne rfl inside⟩
  cases ends with
  | first own none opens shows closes ended =>
    have noneAbove := List.forall_mem_append.mpr ⟨clear, none⟩
    rw [← List.append_assoc] at noneAbove
    have whole := EndsHunk.first own noneAbove opens shows closes
      (apart_append.mpr ⟨ended, clearUnder⟩)
    rwa [List.append_assoc] at whole
  | further none opens some others shows closes ended =>
    have whole := EndsHunk.further (List.forall_mem_append.mpr ⟨clear, none⟩) opens some others shows
      closes (apart_append.mpr ⟨ended, clearUnder⟩)
    rwa [List.append_assoc] at whole

end Insertion

/-! ### One more comment -/

namespace Session

def commented (s : Session) (c : Comment) : Session :=
  { s with comments := s.comments ++ [c] }

theorem commentsFor_commented (s : Session) (c : Comment) (id : HunkId) :
    (s.commented c).commentsFor id = s.commentsFor id ++ if c.hunk = id then [c] else [] := by
  by_cases own : c.hunk = id <;> simp [commentsFor, commented, own]

theorem siteRows_commented (s : Session) {h : ReviewHunk} {c : Comment} (own : c.hunk = h.id)
    (site : Site) :
    (s.commented c).siteRows h site =
      s.siteRows h site ++
        if c.isOn site.line then commentRows (.lineComment h.id site.line) c else [] := by
  by_cases on : c.isOn site.line <;>
    simp [siteRows, lineCommentRows, lineComments, commentsFor_commented, own, on]

def wholeComments (s : Session) (h : ReviewHunk) : List Comment :=
  (s.commentsFor h.id).filter (·.line.isNone)

theorem wholeComments_commented (s : Session) {h : ReviewHunk} {c : Comment} (own : c.hunk = h.id) :
    (s.commented c).wholeComments h =
      s.wholeComments h ++ if c.line.isNone then [c] else [] := by
  by_cases whole : c.line.isNone <;> simp [wholeComments, commentsFor_commented, own, whole]

def openingBorder (id : HunkId) : Row :=
  .styled (.commentBorder id) (commentIndent ++ "┌─ hunk comments") .border

def closingBorder (id : HunkId) : Row :=
  .styled (.commentBorder id) (commentIndent ++ "└─") .border

theorem hunkCommentRows_nil {s : Session} {h : ReviewHunk} (none : s.wholeComments h = []) :
    s.hunkCommentRows h = [] := by
  rw [wholeComments] at none
  rw [hunkCommentRows, none]

theorem hunkCommentRows_some {s : Session} {h : ReviewHunk} (some : s.wholeComments h ≠ []) :
    s.hunkCommentRows h =
      openingBorder h.id :: (s.wholeComments h).flatMap (commentRows (.hunkComment h.id)) ++
        [closingBorder h.id] := by
  rw [wholeComments] at some
  unfold hunkCommentRows wholeComments
  split
  · contradiction
  · rfl

/-- The rows of the other hunks do not change. -/
theorem hunkRows_commented_other (s : Session) {g : ReviewHunk} {c : Comment} (other : c.hunk ≠ g.id) :
    (s.commented c).hunkRows g = s.hunkRows g := by
  have same : (s.commented c).commentsFor g.id = s.commentsFor g.id := by
    rw [commentsFor_commented, if_neg other, List.append_nil]
  have lines : (s.commented c).siteRows g = s.siteRows g := by
    funext site
    simp only [siteRows, lineCommentRows, lineComments, same]
  have hunk : (s.commented c).hunkCommentRows g = s.hunkCommentRows g := by
    simp only [hunkCommentRows, same]
  rw [hunkRows_eq_sites, hunkRows_eq_sites, lines, hunk]
  rfl

/-- The sites that a comment is not on are shown as before. -/
theorem flatMap_siteRows_commented (s : Session) {h : ReviewHunk} {c : Comment} (own : c.hunk = h.id)
    {sites : List Site} (off : ∀ site ∈ sites, ¬c.isOn site.line) :
    sites.flatMap ((s.commented c).siteRows h) = sites.flatMap (s.siteRows h) := by
  apply List.flatMap_congr
  intro site inside
  rw [siteRows_commented s own, if_neg (off site inside), List.append_nil]

theorem hunkCommentRows_commented_line (s : Session) {h : ReviewHunk} {c : Comment}
    (own : c.hunk = h.id) (pinned : c.line.isSome) :
    (s.commented c).hunkCommentRows h = s.hunkCommentRows h := by
  obtain ⟨pin, line⟩ := Option.isSome_iff_exists.mp pinned
  have same : (s.commented c).wholeComments h = s.wholeComments h := by
    rw [wholeComments_commented s own, line]
    exact List.append_nil _
  rw [wholeComments, wholeComments] at same
  simp only [hunkCommentRows, same]

/-- A comment on a line of the hunk is on no other of its lines. -/
theorem exists_site_of_isOn {h : ReviewHunk} (unsaturated : h.Unsaturated) {l : NumberedLine}
    (there : l ∈ h.numbered) {c : Comment} (on : c.isOn l) :
    ∃ above site below, h.sites = above ++ site :: below ∧ site.line = l ∧
      ∀ other ∈ above ++ below, ¬c.isOn other.line := by
  have lines : h.sites.map Site.line = h.numbered := map_line_sitesFrom none h.numbered
  obtain ⟨site, inside, rfl⟩ := List.mem_map.mp (lines ▸ there)
  obtain ⟨above, below, split⟩ := List.append_of_mem inside
  have pairs := unsaturated.isOn_apart
  rw [← lines, split, List.map_append, List.map_cons, List.pairwise_append, List.pairwise_cons] at pairs
  obtain ⟨-, ⟨later, -⟩, earlier⟩ := pairs
  refine ⟨above, site, below, split, rfl, fun other member onOther => ?_⟩
  rcases List.mem_append.mp member with inAbove | inBelow
  · exact earlier _ (List.mem_map_of_mem inAbove) _ List.mem_cons_self c onOther on
  · exact later _ (List.mem_map_of_mem inBelow) c on onOther

/-- A comment on a line stands under it. -/
theorem exists_underLine (s : Session) {h : ReviewHunk} (unsaturated : h.Unsaturated)
    {l : NumberedLine} (there : l ∈ h.numbered) {c : Comment} (own : c.hunk = h.id) (on : c.isOn l) :
    ∃ i : Insertion, s.hunkRows h = i.old ∧ (s.commented c).hunkRows h = i.new ∧
      i.UnderLine h.id l c.text := by
  obtain ⟨above, site, below, split, rfl, off⟩ := exists_site_of_isOn unsaturated there on
  obtain ⟨offAbove, offBelow⟩ := List.forall_mem_append.mp off
  obtain ⟨pin, pinned, -⟩ := (c.isOn_iff site.line).mp on
  have hunk := s.hunkCommentRows_commented_line own (by rw [pinned]; rfl)
  refine ⟨⟨s.headerRow h :: above.flatMap (s.siteRows h) ++ s.siteRows h site,
    commentRows (.lineComment h.id site.line) c,
    below.flatMap (s.siteRows h) ++ s.hunkCommentRows h⟩, ?_, ?_, showsText_commentRows _ c, ?_⟩
  · rw [hunkRows_eq_sites, split]
    simp [Insertion.old]
  · rw [hunkRows_eq_sites, split, List.flatMap_append, List.flatMap_cons, siteRows_commented s own,
      if_pos on, flatMap_siteRows_commented s own offAbove, flatMap_siteRows_commented s own offBelow,
      hunk]
    simp [Insertion.new]
    rfl
  -- rows of other sites have another line in their tags
  refine ⟨s.headerRow h :: above.flatMap (s.siteRows h), site.row h, s.lineCommentRows h site.line,
    rfl, Site.tag_row h site, ?_, ?_⟩
  · intro r member
    obtain ⟨text, rfl⟩ := exists_styled_of_mem_comments member
    rfl
  · have elsewhere {sites : List Site} (off : ∀ other ∈ sites, ¬c.isOn other.line) {r : Row}
        (member : r ∈ sites.flatMap (s.siteRows h)) :
        r.tag ≠ .diffLine h.id site.line ∧ r.tag ≠ .lineComment h.id site.line := by
      obtain ⟨other, inside, shown⟩ := List.mem_flatMap.mp member
      have different : other.line ≠ site.line := fun same => off other inside (same ▸ on)
      rcases tag_of_mem_siteRows shown with tag | tag <;> simp [tag, different]
    intro r member
    simp only [List.cons_append, List.mem_cons, List.mem_append] at member
    rcases member with rfl | inAbove | inBelow | inHunk
    · simp
    · exact elsewhere offAbove inAbove
    · exact elsewhere offBelow inBelow
    · rcases mem_hunkCommentRows inHunk with ⟨text, rfl⟩ | ⟨text, rfl⟩ <;> simp [Row.styled]

/-- With a comment on the hunk as a whole there are borders, whether there were any before or not. -/
theorem hunkRows_commented_whole (s : Session) {h : ReviewHunk} {c : Comment} (own : c.hunk = h.id)
    (whole : c.line = none) :
    (s.commented c).hunkRows h = s.headerRow h :: h.sites.flatMap (s.siteRows h) ++
      (openingBorder h.id :: (s.wholeComments h).flatMap (commentRows (.hunkComment h.id)) ++
        commentRows (.hunkComment h.id) c ++ [closingBorder h.id]) := by
  have off : ∀ site ∈ h.sites, ¬c.isOn site.line := by
    intro site _ on
    obtain ⟨pin, pinned, -⟩ := (c.isOn_iff site.line).mp on
    cases whole.symm.trans pinned
  have grown : (s.commented c).wholeComments h = s.wholeComments h ++ [c] := by
    rw [wholeComments_commented s own, whole]
    rfl
  rw [hunkRows_eq_sites, flatMap_siteRows_commented s own off, hunkCommentRows_some (by simp [grown]),
    grown, List.flatMap_append]
  simp only [List.flatMap_singleton, List.cons_append]
  rfl

theorem noHunkComments_lines (s : Session) (h : ReviewHunk) :
    Insertion.NoHunkComments h.id (s.headerRow h :: h.sites.flatMap (s.siteRows h)) := by
  intro r member
  rcases List.mem_cons.mp member with rfl | line
  · simp
  · obtain ⟨site, -, shown⟩ := List.mem_flatMap.mp line
    rcases tag_of_mem_siteRows shown with tag | tag <;> simp [tag]

/-- A comment on a hunk as a whole ends its rows. -/
theorem exists_endsHunk (s : Session) (h : ReviewHunk) {c : Comment} (own : c.hunk = h.id)
    (whole : c.line = none) :
    ∃ i : Insertion, s.hunkRows h = i.old ∧ (s.commented c).hunkRows h = i.new ∧
      i.EndsHunk h.id c.text := by
  have none := s.noHunkComments_lines h
  have shows := showsText_commentRows (.hunkComment h.id) c
  have opens : (openingBorder h.id).tag = .commentBorder h.id := rfl
  have closes : (closingBorder h.id).tag = .commentBorder h.id := rfl
  by_cases some : s.wholeComments h = []
  · -- the borders come after the hunk's last row, which is at least its header
    obtain ⟨above, last, split⟩ := (List.eq_nil_or_concat' _).resolve_left
      (List.cons_ne_nil (s.headerRow h) (h.sites.flatMap (s.siteRows h)))
    have rows : s.hunkRows h = above ++ [last] := by
      rw [hunkRows_eq_sites, hunkCommentRows_nil some, split, List.append_nil]
    have inside : last ∈ s.hunkRows h := by simp [rows]
    have first := Insertion.EndsHunk.first (hunk?_of_mem_hunkRows inside) (split ▸ none) opens shows
      closes (nofun : Apart h.id [])
    refine ⟨_, ?_, ?_, first⟩
    · rw [rows, Insertion.old, List.append_nil]
    · rw [hunkRows_commented_whole s own whole, some, split]
      simp [Insertion.new]
  · have others : ∀ r ∈ (s.wholeComments h).flatMap (commentRows (.hunkComment h.id)),
        r.tag = .hunkComment h.id := by
      intro r member
      obtain ⟨text, rfl⟩ := exists_styled_of_mem_comments member
      rfl
    have shown : (s.wholeComments h).flatMap (commentRows (.hunkComment h.id)) ≠ [] := by
      simpa [commentRows_ne_nil] using List.exists_mem_of_ne_nil _ some
    have further := Insertion.EndsHunk.further none opens shown others shows closes
      (nofun : Apart h.id [])
    refine ⟨_, ?_, ?_, further⟩
    · rw [hunkRows_eq_sites, hunkCommentRows_some some]
      simp [Insertion.old]
    · rw [hunkRows_commented_whole s own whole]
      simp [Insertion.new]

theorem addComment_of_known {s : Session} {c : Comment} (known : (s.hunk? c.hunk).isSome) :
    (s.addComment c).1 = s.commented c ∧ (s.addComment c).2.applied :=
  (s.appended_addComment known).symm

/-- A row with a line is about a line of its hunk. -/
theorem Origin.line_mem {s : Session} {r : Row} (origin : s.Origin r) {id : HunkId}
    (about : r.tag.hunk? = some id) :
    ∃ h ∈ s.hunks, h.id = id ∧ ∀ l, r.tag.line? = some l → l ∈ h.numbered := by
  cases origin with
  | line h inside site there =>
    rw [Site.tag_row] at about ⊢
    refine ⟨h, inside, Option.some.inj about, ?_⟩
    rintro l ⟨⟩
    exact line_mem_numbered there
  | lineComment h inside l there text =>
    refine ⟨h, inside, Option.some.inj about, ?_⟩
    rintro l ⟨⟩
    exact there
  | header h inside =>
    rw [tag_headerRow] at about ⊢
    exact ⟨h, inside, Option.some.inj about, nofun⟩
  | border h inside text => exact ⟨h, inside, Option.some.inj about, nofun⟩
  | hunkComment h inside text => exact ⟨h, inside, Option.some.inj about, nofun⟩
  | help tag isHelp text => cases tag <;> cases isHelp <;> cases about
  | _ => cases about

/-- A comment written at a row of a hunk is taken, and shown there and nowhere else. -/
theorem leads_addComment {s : Session} (distinct : (s.hunks.map ReviewHunk.id).Nodup)
    (unsaturated : ∀ h ∈ s.hunks, h.Unsaturated) {showHelp : Bool} {r : Row}
    (shown : r ∈ (s.stream showHelp).rows) {id : HunkId} (about : r.tag.hunk? = some id) {c : Comment}
    {stamp : Stamp} {text : String} {selection : Option Selection}
    (written : c = .write stamp ⟨id, id.file, r.tag.line?⟩ text selection) :
    (s.addComment c).2.applied ∧
      ∃ i : Insertion, i.Leads (s.stream showHelp) ((s.addComment c).1.stream showHelp) ∧
        match r.tag.line? with
        | some l => i.UnderLine id l text
        | none => i.EndsHunk id text := by
  obtain ⟨h, member, rfl, lines⟩ := (origin_of_mem_stream shown).line_mem about
  have own : c.hunk = h.id := by rw [written]; rfl
  have sameText : c.text = text := by rw [written]; rfl
  have known : (s.hunk? c.hunk).isSome := List.find?_isSome.mpr ⟨h, member, by simp [own]⟩
  obtain ⟨added, applied⟩ := addComment_of_known known
  refine ⟨applied, ?_⟩
  rw [added]
  have sameHunks : (s.commented c).hunks = s.hunks := rfl
  have others : ∀ g ∈ s.hunks, g.id ≠ h.id → (s.commented c).hunkRows g = s.hunkRows g :=
    fun g _ other => s.hunkRows_commented_other (own ▸ other.symm)
  cases at_line : r.tag.line? with
  | some l =>
    have there := lines l at_line
    have on : c.isOn l := by
      rw [written, at_line]
      exact Comment.isOn_write there stamp h.id h.id.file text selection
    obtain ⟨i, old, new, under⟩ := s.exists_underLine (unsaturated h member) there own on
    obtain ⟨above, below, clearAbove, clearBelow, leads⟩ :=
      leads_stream sameHunks member distinct others old new showHelp
    exact ⟨_, leads, sameText ▸ under.within clearAbove clearBelow⟩
  | none =>
    have whole : c.line = none := by rw [written, at_line]; rfl
    obtain ⟨i, old, new, ends⟩ := s.exists_endsHunk h own whole
    obtain ⟨above, below, clearAbove, clearBelow, leads⟩ :=
      leads_stream sameHunks member distinct others old new showHelp
    exact ⟨_, leads, sameText ▸ ends.within clearAbove clearBelow⟩

theorem hunks_render (s : Session) (showHelp : Bool) :
    (s.render showHelp).1.hunks.map (·.toHunk) = s.hunks.map (·.toHunk) :=
  toHunk_placeHunks s.hunks _

/-- The round trip of a comment: written at a row of a rendered review, it is taken, and rendering
again shows it at that row's line or hunk, under what was there, and nowhere else. -/
theorem comment_round_trip (s : Session) (showHelp : Bool)
    (distinct : (s.hunks.map ReviewHunk.id).Nodup) (unsaturated : ∀ h ∈ s.hunks, h.Unsaturated)
    {r : Row} (shown : r ∈ (s.render showHelp).2.rows) {id : HunkId} (about : r.tag.hunk? = some id)
    (stamp : Stamp) (text : String) (selection : Option Selection) :
    ∃ place, r.tag.anchor? = some place ∧
      let rendered := s.render showHelp
      let added := rendered.1.addComment (.write stamp place text selection)
      added.2.applied ∧ ∃ i : Insertion, i.Leads rendered.2 (added.1.render showHelp).2 ∧
        match r.tag.line? with
        | some l => i.UnderLine id l text
        | none => i.EndsHunk id text := by
  have hunks := s.hunks_render showHelp
  have ids : (s.render showHelp).1.hunks.map ReviewHunk.id = s.hunks.map ReviewHunk.id := by
    have mapped := congrArg (List.map Hunk.id) hunks
    rw [List.map_map, List.map_map] at mapped
    exact mapped
  have fits : ∀ h ∈ (s.render showHelp).1.hunks, h.Unsaturated := by
    have all : ∀ h ∈ (s.render showHelp).1.hunks.map (·.toHunk), h.Unsaturated := by
      rw [hunks]
      exact List.forall_mem_map.mpr unsaturated
    exact List.forall_mem_map.mp all
  refine ⟨⟨id, id.file, r.tag.line?⟩, by rw [Tag.anchor?, about]; rfl, ?_⟩
  have again : (s.render showHelp).2 = (s.render showHelp).1.stream showHelp :=
    (s.stream_render showHelp showHelp).symm
  rw [again] at shown
  simp only [again]
  exact leads_addComment (ids ▸ distinct) fits shown about rfl

def onlyLine : NumberedLine :=
  ⟨.context, some (.clamp 1), some (.clamp 7), "y"⟩

def oneLineReview : Session where
  hunks := [{ oldStart := .clamp 1, oldCount := .clamp 1, newStart := .clamp 7, newCount := .clamp 1,
              context := "", file := "p", lines := [⟨.context, "y"⟩] }]
  comments := [.write ⟨0, {}⟩ ⟨⟨"p", .clamp 7⟩, "p", some onlyLine⟩ "first" none]

/-- A second comment, written at the row of the first, comes after it. -/
theorem comment_round_trip_oneLineReview :
    ∃ place, (Tag.lineComment ⟨"p", .clamp 7⟩ onlyLine).anchor? = some place ∧
      let rendered := oneLineReview.render true
      let added := rendered.1.addComment (.write ⟨1, {}⟩ place "second" none)
      added.2.applied ∧ ∃ i : Insertion, i.Leads rendered.2 (added.1.render true).2 ∧
        i.UnderLine ⟨"p", .clamp 7⟩ onlyLine "second" := by
  have distinct : (oneLineReview.hunks.map ReviewHunk.id).Nodup := by decide
  have unsaturated : ∀ h ∈ oneLineReview.hunks, h.Unsaturated := by
    intro h member side
    rw [List.mem_singleton.mp member]
    cases side <;> decide
  have shown : Row.styled (.lineComment ⟨"p", .clamp 7⟩ onlyLine) "            » first" .comment ∈
      (oneLineReview.render true).2.rows := by decide +kernel
  exact comment_round_trip oneLineReview true distinct unsaturated shown rfl ⟨1, {}⟩ "second" none

end Session

end HunkReview
