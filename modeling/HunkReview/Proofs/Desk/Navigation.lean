import HunkReview.Proofs.Desk.InView
import HunkReview.Proofs.Stream.Headers
import Mathlib.Order.Bounds.Defs

/-! Going from hunk to hunk. The places that a desk has for its hunks are the rows that are headers, one
for each hunk from the top down. So the next hunk is the first header below the cursor and the previous
one the last header above it, and going on from the top leads to every hunk once. -/
namespace HunkReview

/-! ### Neighbours in an increasing list -/

theorem isLeast_of_find? {rows : List Nat} (increasing : rows.Pairwise (· < ·)) {cursor row : Nat}
    (found : rows.find? (cursor < ·) = some row) : IsLeast {q | q ∈ rows ∧ cursor < q} row := by
  obtain ⟨ahead, above, below, rfl, passed⟩ := List.find?_eq_some_iff_append.mp found
  refine ⟨⟨by simp, of_decide_eq_true ahead⟩, ?_⟩
  rintro q ⟨member, later⟩
  rcases List.mem_append.mp member with early | late
  · have stays := passed q early
    simp [later] at stays
  · rcases List.mem_cons.mp late with rfl | beyond
    · exact Nat.le_refl q
    · have rest := (List.pairwise_append.mp increasing).2.1
      exact Nat.le_of_lt (List.rel_of_pairwise_cons rest beyond)

theorem isGreatest_of_getLast? {rows : List Nat} (increasing : rows.Pairwise (· < ·))
    {cursor row : Nat} (found : (rows.filter (· < cursor)).getLast? = some row) :
    IsGreatest {q | q ∈ rows ∧ q < cursor} row := by
  have increasing := increasing.filter fun q => decide (q < cursor)
  have members (q : Nat) : q ∈ rows.filter (fun q => decide (q < cursor)) ↔ q ∈ rows ∧ q < cursor := by
    simp
  obtain ⟨before, split⟩ := List.getLast?_eq_some_iff.mp found
  rw [split] at increasing members
  refine ⟨(members row).mp (by simp), ?_⟩
  intro q inside
  rcases List.mem_append.mp ((members q).mpr inside) with early | last
  · exact Nat.le_of_lt ((List.pairwise_append.mp increasing).2.2 q early row (by simp))
  · exact Nat.le_of_eq (List.mem_singleton.mp last)

/-- What is left below the first row below. -/
theorem filter_of_find? {rows : List Nat} (increasing : rows.Pairwise (· < ·)) {cursor row : Nat}
    {rest : List Nat} (ahead : rows.filter (cursor < ·) = row :: rest) :
    rows.filter (row < ·) = rest := by
  have later : cursor < row := by
    have member : row ∈ rows.filter (cursor < ·) := ahead ▸ List.mem_cons_self
    simpa using (List.mem_filter.mp member).2
  have both : rows.filter (row < ·) = (rows.filter (cursor < ·)).filter (row < ·) := by
    rw [List.filter_filter]
    apply List.filter_congr
    intro q _
    rw [Bool.eq_iff_iff]
    simp only [decide_eq_true_eq, Bool.and_eq_true]
    omega
  have ordered := increasing.filter fun q => decide (cursor < q)
  rw [ahead] at ordered
  rw [both, ahead, List.filter_cons_of_neg (by simp), List.filter_eq_self]
  intro q member
  exact decide_eq_true (List.rel_of_pairwise_cons ordered member)

/-! ### Headers in a view -/

def View.IsHeader (v : View) (row : Nat) : Prop :=
  ∃ id, v.tag? row = some (.hunkHeader id)

theorem View.tag?_eq (v : View) (row : Nat) : v.tag? row = v.stream.tags[row]? := by
  rw [tag?, Stream.tags, List.getElem?_map]

theorem Tag.isHunkHeader_iff (tag : Tag) : tag.isHunkHeader ↔ ∃ id, tag = .hunkHeader id := by
  cases tag <;> simp [isHunkHeader]

theorem map_hunkHeader_filterMap (tags : List Tag) :
    (tags.filterMap Tag.header?).map Tag.hunkHeader = tags.filter Tag.isHunkHeader := by
  have each : (fun tag => (Tag.header? tag).map Tag.hunkHeader) = Option.guard Tag.isHunkHeader := by
    funext tag
    cases tag <;> rfl
  rw [List.map_filterMap, each, List.filterMap_eq_filter]

namespace Desk

/-- The rows of the hunks are the headers, from the top down, and each is its own hunk's. The places
that they come from are where the rows of the hunks begin in the text. -/
structure FindsHeaders (d : Desk) : Prop where
  offsets : d.session.hunks.map (·.offset) =
    d.session.hunkStarts (rowsSize (Session.topRows d.settings.showHelp)) none d.session.hunks
  rows : ∀ row, row ∈ d.hunkRows ↔ d.view.IsHeader row
  increasing : d.hunkRows.Pairwise (· < ·)
  each : List.Forall₂ (fun (h : ReviewHunk) row => d.view.tag? row = some (.hunkHeader h.id))
    d.session.hunks d.hunkRows

theorem Fresh.map_offset {d : Desk} (fresh : d.Fresh) :
    d.session.hunks.map (·.offset) = d.view.stream.headerOffsets := by
  have placed : Session.placeHunks d.session.hunks
      (d.session.stream d.settings.showHelp).headerOffsets = d.session.hunks :=
    congrArg (fun rendered => rendered.1.hunks) fresh.rendered
  have each : (d.session.stream d.settings.showHelp).headerOffsets.length =
      d.session.hunks.length := by
    rw [Session.headerOffsets_stream, Session.length_hunkStarts]
  have offsets := Session.map_offset_placeHunks each
  rw [placed] at offsets
  rw [offsets, fresh.stream_eq]

/-- Looking up the places gives the rows that are headers. -/
theorem Fresh.hunkRows_eq {d : Desk} (fresh : d.Fresh) :
    d.hunkRows = d.view.stream.tags.findIdxs Tag.isHunkHeader := by
  have starts : d.view.starts = rowStarts 0 d.view.stream.rows := congrArg View.starts fresh.view
  have rows : d.hunkRows = (d.session.hunks.map (·.offset)).map d.view.rowAt := by
    rw [List.map_map]
    rfl
  rw [rows, fresh.map_offset]
  unfold View.rowAt
  rw [starts]
  exact map_lastStartAt_headerStarts [] d.view.stream.rows

/-- The headers are shown in the order of the hunks. -/
theorem Fresh.headers_eq {d : Desk} (fresh : d.Fresh) :
    d.view.stream.tags.filter Tag.isHunkHeader = d.session.hunks.map fun h => .hunkHeader h.id := by
  have ids := (d.session.showsDiff_render d.settings.showHelp).headers
  rw [fresh.rendered] at ids
  rw [← map_hunkHeader_filterMap, ids, List.map_map]
  rfl

theorem Fresh.findsHeaders {d : Desk} (fresh : d.Fresh) : d.FindsHeaders := by
  have rows := fresh.hunkRows_eq
  have headers := fresh.headers_eq
  constructor
  case offsets =>
    rw [fresh.map_offset, ← fresh.stream_eq, Session.headerOffsets_stream]
  case rows =>
    intro row
    rw [rows, List.mem_findIdxs_iff_exists_getElem_pos, View.IsHeader, d.view.tag?_eq]
    simp only [List.getElem?_eq_some_iff, Tag.isHunkHeader_iff]
    exact exists_comm
  case increasing =>
    rw [rows]
    exact List.pairwise_findIdxs
  case each =>
    have counts : d.hunkRows.length = d.session.hunks.length := List.length_map _
    refine List.forall₂_iff_get.mpr ⟨counts.symm, fun i inHunks inRows => ?_⟩
    have inHeaders : i < (d.view.stream.tags.filter Tag.isHunkHeader).length := by
      rw [headers, List.length_map]
      exact inHunks
    have header := List.getElem_filter_eq_getElem_getElem_findIdxs inHeaders
    rw [List.getElem_of_eq headers inHeaders, List.getElem_map] at header
    rw [List.get_eq_getElem, List.get_eq_getElem, d.view.tag?_eq, List.getElem_of_eq rows inRows,
      header]
    exact List.getElem?_eq_getElem _

/-! ### Going to the next header and to the previous one -/

theorem FindsHeaders.lt_size {d : Desk} (finds : d.FindsHeaders) {row : Nat}
    (member : row ∈ d.hunkRows) : row < d.view.size := by
  obtain ⟨id, there⟩ := (finds.rows row).mp member
  obtain ⟨r, found, -⟩ := Option.map_eq_some_iff.mp there
  exact (List.getElem?_eq_some_iff.mp found).1

/-- Where the cursor is and what is said has nothing to do with it. -/
theorem FindsHeaders.moved {d : Desk} (finds : d.FindsHeaders) (cursor scroll : Nat)
    (message : Option Message) : ({ d with cursor, scroll, message } : Desk).FindsHeaders :=
  ⟨finds.offsets, finds.rows, finds.increasing, finds.each⟩

/-- Going to a row that there is only moves the cursor. -/
theorem moveTo_of_lt {d : Desk} {row : Nat} (inside : row < d.view.size) :
    ∃ scroll, d.moveTo row = { d with cursor := row, scroll } := by
  have last : min row d.view.lastRow = row := by
    unfold View.lastRow
    omega
  rw [moveTo, last]
  exact revealCursor_eq _

theorem FindsHeaders.nextHunk_eq {d : Desk} (finds : d.FindsHeaders) {row : Nat}
    (found : d.hunkRows.find? (d.cursor < ·) = some row) :
    ∃ scroll, d.nextHunk = { d with cursor := row, scroll } := by
  rw [nextHunk, found]
  exact moveTo_of_lt (finds.lt_size (List.mem_of_find?_eq_some found))

theorem FindsHeaders.previousHunk_eq {d : Desk} (finds : d.FindsHeaders) {row : Nat}
    (found : (d.hunkRows.filter (· < d.cursor)).getLast? = some row) :
    ∃ scroll, d.previousHunk = { d with cursor := row, scroll } := by
  have member := List.mem_of_mem_filter (List.mem_of_getLast? found)
  rw [previousHunk, found]
  exact moveTo_of_lt (finds.lt_size member)

theorem nextHunk_of_none {d : Desk} (last : d.hunkRows.find? (d.cursor < ·) = none) :
    d.nextHunk = d.say .lastHunk := by
  rw [nextHunk, last]

theorem previousHunk_of_none {d : Desk} (first : (d.hunkRows.filter (· < d.cursor)).getLast? = none) :
    d.previousHunk = d.say .firstHunk := by
  rw [previousHunk, first]

/-- The first row is a banner, or says that there is nothing to review. -/
theorem Fresh.not_isHeader_zero {d : Desk} (fresh : d.Fresh) : ¬d.view.IsHeader 0 := by
  rintro ⟨id, there⟩
  rw [View.tag?, ← fresh.stream_eq] at there
  by_cases empty : d.session.hunks = []
  · simp [Session.rows_stream_empty empty, Row.styled] at there
  · obtain ⟨h, rest, filled⟩ := List.exists_cons_of_ne_nil empty
    cases help : d.settings.showHelp with
    | true => simp [Session.rows_stream empty, help, Session.topRows, helpBanner, Row.styled] at there
    | false =>
      simp [Session.rows_stream empty, help, Session.topRows, filled, Session.fileRows, fileBannerRow,
        Row.styled] at there

end Desk

namespace Loop

def Step.Presses (c : Char) : Step → Prop
  | .press _ k _ => k.key = .char c
  | _ => False

/-- The cursor is moved to a row and something is said or nothing, and nothing else is done. -/
def OnlyMoves (l m : Loop) (row : Nat) (message : Option Message) : Prop :=
  ∃ scroll, m = { l with desk := { l.desk with cursor := row, scroll, message } }

def cursors (l : Loop) : List Step → List Nat
  | [] => []
  | x :: xs => (l.step x).desk.cursor :: (l.step x).cursors xs

/-- A key that asks for nothing does at a desk in normal mode what it does. -/
theorem step_of_presses {l : Loop} (normal : l.desk.mode = .normal) {c : Char} {x : Step}
    (presses : x.Presses c) {act : Desk → Desk}
    (does : ∀ control d, Desk.pressChar control c d = (act d, none)) :
    l.step x = { l with desk := act { l.desk with message := none } } := by
  cases x with
  | press stamp k world =>
    have key : k.key = .char c := presses
    simp [step, press, Desk.press, normal, Desk.pressNormal, key, does, Desk.fulfil]
  | _ => exact presses.elim

theorem step_next {l : Loop} (normal : l.desk.mode = .normal) {x : Step} (presses : x.Presses 'n') :
    l.step x = { l with desk := ({ l.desk with message := none } : Desk).nextHunk } :=
  step_of_presses normal presses fun _ _ => rfl

theorem step_previous {l : Loop} (normal : l.desk.mode = .normal) {x : Step}
    (presses : x.Presses 'N') :
    l.step x = { l with desk := ({ l.desk with message := none } : Desk).previousHunk } :=
  step_of_presses normal presses fun _ _ => rfl

/-- The keys `n` and `N` lead from header to header, and say so where there is none to go to. -/
structure Navigates (l : Loop) : Prop where
  headers : l.desk.FindsHeaders
  next : l.desk.mode = .normal → ∀ x : Step, x.Presses 'n' →
    (∃ row, IsLeast {q | l.desk.view.IsHeader q ∧ l.desk.cursor < q} row ∧
      l.OnlyMoves (l.step x) row none) ∨
    (∀ q, l.desk.view.IsHeader q → q ≤ l.desk.cursor) ∧
      l.OnlyMoves (l.step x) l.desk.cursor (some .lastHunk)
  previous : l.desk.mode = .normal → ∀ x : Step, x.Presses 'N' →
    (∃ row, IsGreatest {q | l.desk.view.IsHeader q ∧ q < l.desk.cursor} row ∧
      l.OnlyMoves (l.step x) row none) ∨
    (∀ q, l.desk.view.IsHeader q → l.desk.cursor ≤ q) ∧
      l.OnlyMoves (l.step x) l.desk.cursor (some .firstHunk)
  tour : l.desk.mode = .normal → l.desk.cursor = 0 → ∀ xs : List Step,
    (∀ x ∈ xs, x.Presses 'n') → xs.length = l.desk.session.hunks.length →
      l.cursors xs = l.desk.hunkRows

theorem next_of_findsHeaders {l : Loop} (finds : l.desk.FindsHeaders)
    (normal : l.desk.mode = .normal) {x : Step} (presses : x.Presses 'n') :
    (∃ row, IsLeast {q | l.desk.view.IsHeader q ∧ l.desk.cursor < q} row ∧
      l.OnlyMoves (l.step x) row none) ∨
    (∀ q, l.desk.view.IsHeader q → q ≤ l.desk.cursor) ∧
      l.OnlyMoves (l.step x) l.desk.cursor (some .lastHunk) := by
  rw [step_next normal presses]
  cases found : l.desk.hunkRows.find? (l.desk.cursor < ·) with
  | some row =>
    have least := isLeast_of_find? finds.increasing found
    simp only [finds.rows] at least
    obtain ⟨scroll, moved⟩ := (finds.moved l.desk.cursor l.desk.scroll none).nextHunk_eq found
    exact .inl ⟨row, least, scroll, by rw [moved]⟩
  | none =>
    have stays := Desk.nextHunk_of_none (d := { l.desk with message := none }) found
    refine .inr ⟨fun q header => ?_, l.desk.scroll, by rw [stays]; rfl⟩
    have passed := List.find?_eq_none.mp found q ((finds.rows q).mpr header)
    simpa using passed

theorem previous_of_findsHeaders {l : Loop} (finds : l.desk.FindsHeaders)
    (normal : l.desk.mode = .normal) {x : Step} (presses : x.Presses 'N') :
    (∃ row, IsGreatest {q | l.desk.view.IsHeader q ∧ q < l.desk.cursor} row ∧
      l.OnlyMoves (l.step x) row none) ∨
    (∀ q, l.desk.view.IsHeader q → l.desk.cursor ≤ q) ∧
      l.OnlyMoves (l.step x) l.desk.cursor (some .firstHunk) := by
  rw [step_previous normal presses]
  cases found : (l.desk.hunkRows.filter (· < l.desk.cursor)).getLast? with
  | some row =>
    have greatest := isGreatest_of_getLast? finds.increasing found
    simp only [finds.rows] at greatest
    obtain ⟨scroll, moved⟩ := (finds.moved l.desk.cursor l.desk.scroll none).previousHunk_eq found
    exact .inl ⟨row, greatest, scroll, by rw [moved]⟩
  | none =>
    have stays := Desk.previousHunk_of_none (d := { l.desk with message := none }) found
    refine .inr ⟨fun q header => ?_, l.desk.scroll, by rw [stays]; rfl⟩
    have passed := List.filter_eq_nil_iff.mp (List.getLast?_eq_none_iff.mp found) q
      ((finds.rows q).mpr header)
    simpa using passed

/-- Going on leads to the headers below the cursor, one after the other. -/
theorem cursors_next {l : Loop} (finds : l.desk.FindsHeaders) (normal : l.desk.mode = .normal)
    {xs : List Step} (presses : ∀ x ∈ xs, x.Presses 'n') {ahead : List Nat}
    (rows : l.desk.hunkRows.filter (l.desk.cursor < ·) = ahead) (each : xs.length = ahead.length) :
    l.cursors xs = ahead := by
  -- the induction is on the keys; each leaves behind the first of the rows that are ahead
  induction xs generalizing l ahead with
  | nil => exact (List.length_eq_zero_iff.mp each.symm).symm
  | cons x xs ih =>
    obtain ⟨row, rest, rfl⟩ := List.exists_cons_of_length_eq_add_one each.symm
    obtain ⟨here, later⟩ := List.forall_mem_cons.mp presses
    have found : l.desk.hunkRows.find? (l.desk.cursor < ·) = some row := by
      rw [← List.head?_filter, rows, List.head?_cons]
    obtain ⟨scroll, moved⟩ := (finds.moved l.desk.cursor l.desk.scroll none).nextHunk_eq found
    have stepped := step_next normal here
    rw [moved] at stepped
    have below := filter_of_find? finds.increasing rows
    have rest := ih (l := { l with desk := { l.desk with cursor := row, scroll, message := none } })
      (finds.moved row scroll none) normal later below (Nat.succ_inj.mp each)
    rw [cursors, stepped, rest]

theorem navigates_of_fresh {l : Loop} (fresh : l.desk.Fresh) : l.Navigates := by
  have finds := fresh.findsHeaders
  constructor
  case headers => exact finds
  case next => exact fun normal x presses => next_of_findsHeaders finds normal presses
  case previous => exact fun normal x presses => previous_of_findsHeaders finds normal presses
  case tour =>
    intro normal top xs presses each
    have ahead : l.desk.hunkRows.filter (l.desk.cursor < ·) = l.desk.hunkRows := by
      rw [top, List.filter_eq_self]
      intro row member
      have header := (finds.rows row).mp member
      have notTop : row ≠ 0 := fun zero => fresh.not_isHeader_zero (zero ▸ header)
      exact decide_eq_true (Nat.pos_of_ne_zero notTop)
    exact cursors_next finds normal presses ahead (each.trans (List.length_map _).symm)

/-- In all runs the keys `n` and `N` go from header to header of the hunks. -/
theorem navigates_run (session : Session) (source : Source) (settings : Settings)
    (steps : List Step) : (run session source settings steps).Navigates :=
  navigates_of_fresh (fresh_run session source settings steps)

/-- Below the help, the banner and the only header there is no other header to go to. -/
example :
    let next : Step := .press ⟨0, {}⟩ ⟨.char 'n', false, false⟩ noWorld
    (run (oneChange .pending .pending) ⟨"/repo", .clamp 3, .unstaged⟩ {} []).cursors [next, next] =
      [4, 4] := by
  decide +kernel

end Loop

end HunkReview
