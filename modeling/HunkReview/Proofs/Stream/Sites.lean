import HunkReview.Stream.Render

/-! The rows of a hunk's lines, line by line. Rendering takes one line at a time, or a deletion and the
addition after it together; what it shows for a line depends on the line and its two neighbours only,
because no line is in two changes. -/
namespace HunkReview

/-- A line of a hunk with its neighbours there. -/
structure Site where
  previous : Option NumberedLine
  line : NumberedLine
  next : Option NumberedLine
  deriving DecidableEq, Repr

def sitesFrom (previous : Option NumberedLine) : List NumberedLine → List Site
  | [] => []
  | l :: ls => ⟨previous, l, ls.head?⟩ :: sitesFrom (some l) ls

/-- Whether the two lines, neighbours in the hunk, are one change. -/
def ReviewHunk.IsChange (h : ReviewHunk) (old new : NumberedLine) : Prop :=
  h.staging = .pending ∧ old.kind = .deletion ∧ new.kind = .addition

instance (h : ReviewHunk) (old new : NumberedLine) : Decidable (h.IsChange old new) :=
  inferInstanceAs (Decidable (_ ∧ _ ∧ _))

theorem ReviewHunk.isChange_iff (h : ReviewHunk) (old new : NumberedLine) :
    isChangePair old.kind (some new.kind) h.staging ↔ h.IsChange old new := by
  simp [isChangePair, IsChange, and_assoc]

/-- An addition ends a change and never begins one. -/
theorem ReviewHunk.IsChange.ends {h : ReviewHunk} {old new : NumberedLine}
    (change : h.IsChange old new) (after : NumberedLine) : ¬h.IsChange new after := by
  intro again
  exact absurd (change.2.2.symm.trans again.2.1) (by decide)

namespace Site

def replacement? (h : ReviewHunk) (site : Site) : Option NumberedLine :=
  site.next.filter (h.IsChange site.line ·)

def replaced? (h : ReviewHunk) (site : Site) : Option NumberedLine :=
  site.previous.filter (h.IsChange · site.line)

def row (h : ReviewHunk) (site : Site) : Row :=
  match site.replacement? h, site.replaced? h with
  | some new, _ =>
    Session.changedRow h site.line .removed .removedInline
      (Inline.diff site.line.content new.content)
  | none, some old =>
    Session.changedRow h site.line .added .addedInline (Inline.diff old.content site.line.content)
  | none, none => lineRow h site.line

@[simp] theorem tag_row (h : ReviewHunk) (site : Site) :
    (site.row h).tag = .diffLine h.id site.line := by
  unfold row
  split <;> rfl

@[simp] theorem text_row (h : ReviewHunk) (site : Site) :
    (site.row h).text = gutter site.line ++ site.line.content := by
  unfold row
  split <;> rfl

theorem row_deletion {h : ReviewHunk} {old new : NumberedLine} (change : h.IsChange old new)
    (previous : Option NumberedLine) :
    row h ⟨previous, old, some new⟩ =
      Session.changedRow h old .removed .removedInline (Inline.diff old.content new.content) := by
  have replaced : (Site.mk previous old (some new)).replacement? h = some new := by
    simp [replacement?, change]
  simp only [row, replaced]

theorem row_addition {h : ReviewHunk} {old new : NumberedLine} (change : h.IsChange old new)
    (next : Option NumberedLine) :
    row h ⟨some old, new, next⟩ =
      Session.changedRow h new .added .addedInline (Inline.diff old.content new.content) := by
  have last : ∀ after ∈ next, ¬h.IsChange new after := fun after _ => change.ends after
  have unreplaced : (Site.mk (some old) new next).replacement? h = none := by
    simpa [replacement?] using last
  have replaces : (Site.mk (some old) new next).replaced? h = some old := by
    simp [replaced?, change]
  simp only [row, unreplaced, replaces]

theorem row_alone {h : ReviewHunk} {l : NumberedLine} {previous next : Option NumberedLine}
    (first : ∀ old ∈ previous, ¬h.IsChange old l) (last : ∀ new ∈ next, ¬h.IsChange l new) :
    row h ⟨previous, l, next⟩ = lineRow h l := by
  have unreplaced : (Site.mk previous l next).replacement? h = none := by
    simpa [replacement?] using last
  have replacesNone : (Site.mk previous l next).replaced? h = none := by
    simpa [replaced?] using first
  simp only [row, unreplaced, replacesNone]

end Site

def Session.siteRows (s : Session) (h : ReviewHunk) (site : Site) : List Row :=
  site.row h :: s.lineCommentRows h site.line

@[simp] theorem map_line_sitesFrom (previous : Option NumberedLine) (ls : List NumberedLine) :
    (sitesFrom previous ls).map Site.line = ls := by
  induction ls generalizing previous with
  | nil => rfl
  | cons l ls ih => rw [sitesFrom, List.map_cons, ih]

/-- The loop never stops inside a change, so each line is shown as its site says. -/
theorem Session.lineRows_eq_sites (s : Session) (h : ReviewHunk) {previous : Option NumberedLine}
    {ls : List NumberedLine}
    (outside : ∀ old ∈ previous, ∀ new ∈ ls.head?, ¬h.IsChange old new) :
    s.lineRows h ls = (sitesFrom previous ls).flatMap (s.siteRows h) := by
  -- after a change the line before is an addition, and after any other line it is outside a change
  fun_induction lineRows s h ls generalizing previous with
  | case1 => rfl
  | case2 l =>
    have shown : Site.row h ⟨previous, l, none⟩ = lineRow h l :=
      Site.row_alone (fun old given => outside old given l rfl) nofun
    simp only [sitesFrom, List.head?_nil, List.flatMap_cons, siteRows, shown, List.flatMap_nil,
      List.append_nil]
    rfl
  | case3 l next rest pair ih =>
    have change := (h.isChange_iff l next).mp pair
    have below := @ih (some next) (by
      rintro old ⟨⟩ new -
      exact change.ends new)
    simp only [sitesFrom, List.head?_cons, List.flatMap_cons, siteRows, Site.row_deletion change,
      Site.row_addition change, below, changeRows]
    simp
  | case4 l next rest apart ih =>
    have notChange : ¬h.IsChange l next := fun change => apart ((h.isChange_iff l next).mpr change)
    have below := @ih (some l) (by
      rintro old ⟨⟩ new ⟨⟩
      exact notChange)
    have shown : Site.row h ⟨previous, l, some next⟩ = lineRow h l :=
      Site.row_alone (fun old given => outside old given l rfl) (by
        rintro new ⟨⟩
        exact notChange)
    have first : sitesFrom previous (l :: next :: rest) =
        ⟨previous, l, some next⟩ :: sitesFrom (some l) (next :: rest) := rfl
    rw [below, first, List.flatMap_cons, siteRows, shown]
    rfl

def ReviewHunk.sites (h : ReviewHunk) : List Site :=
  sitesFrom none h.numbered

theorem Session.hunkRows_eq_sites (s : Session) (h : ReviewHunk) :
    s.hunkRows h =
      s.headerRow h :: h.sites.flatMap (s.siteRows h) ++ s.hunkCommentRows h := by
  have lines : s.lineRows h h.numbered = h.sites.flatMap (s.siteRows h) :=
    s.lineRows_eq_sites h nofun
  rw [hunkRows, lines]

end HunkReview
