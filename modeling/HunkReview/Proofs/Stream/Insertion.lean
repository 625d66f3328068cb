import HunkReview.Proofs.Stream.Outline
import HunkReview.Proofs.Stream.Rerender

/-! Rows put in among the rows of a review. Where one hunk of a review is shown anew, the rows around it
stay: what is put in among the hunk's rows is put in among all rows. -/
namespace HunkReview

/-- Rows with the place where a block is put in. -/
structure Insertion where
  before : List Row
  block : List Row
  after : List Row

namespace Insertion

def old (i : Insertion) : List Row :=
  i.before ++ i.after

def new (i : Insertion) : List Row :=
  i.before ++ i.block ++ i.after

def within (above below : List Row) (i : Insertion) : Insertion :=
  ⟨above ++ i.before, i.block, i.after ++ below⟩

@[simp] theorem old_within (above below : List Row) (i : Insertion) :
    (i.within above below).old = above ++ i.old ++ below := by
  simp [old, within]

@[simp] theorem new_within (above below : List Row) (i : Insertion) :
    (i.within above below).new = above ++ i.new ++ below := by
  simp [new, within]

/-- The block is put into the first stream, which gives the second. Only the rows at the foot, which
sum up the review, may change their texts. -/
structure Leads (i : Insertion) (old new : Stream) : Prop where
  rows : ∃ foot newFoot, old.rows = i.old ++ foot ∧ new.rows = i.new ++ newFoot ∧
    ∀ r ∈ foot ++ newFoot, r.tag = .helpFooter
  tags : ∃ rest, old.tags = i.before.map (·.tag) ++ rest ∧
    new.tags = i.before.map (·.tag) ++ i.block.map (·.tag) ++ rest

end Insertion

def Apart (id : HunkId) (rows : List Row) : Prop :=
  ∀ r ∈ rows, r.tag.hunk? ≠ some id

theorem apart_of_outside {rows : List Row} (outside : ∀ r ∈ rows, r.tag.hunk? = none)
    (id : HunkId) : Apart id rows := by
  intro r member about
  cases (outside r member).symm.trans about

theorem apart_append {id : HunkId} {left right : List Row} :
    Apart id (left ++ right) ↔ Apart id left ∧ Apart id right :=
  List.forall_mem_append

namespace Session

theorem apart_hunkRows (s : Session) {g : ReviewHunk} {id : HunkId} (other : g.id ≠ id) :
    Apart id (s.hunkRows g) := by
  intro r member about
  exact other (Option.some.inj ((hunk?_of_mem_hunkRows member).symm.trans about))

theorem apart_fileRows (s : Session) (before : Option String) {hs : List ReviewHunk} {id : HunkId}
    (others : ∀ g ∈ hs, g.id ≠ id) : Apart id (s.fileRows before hs) := by
  induction hs generalizing before with
  | nil => nofun
  | cons g rest ih =>
    obtain ⟨here, below⟩ := List.forall_mem_cons.mp others
    obtain ⟨top, bottom, outside, rows⟩ := fileRows_cons before g rest
    obtain ⟨clearTop, clearBottom⟩ := apart_append.mp (apart_of_outside outside id)
    rw [rows, apart_append, apart_append, apart_append]
    exact ⟨⟨clearTop, s.apart_hunkRows here⟩, clearBottom, ih _ below⟩

/-- Where the other hunks are shown as before, so are the rows around the one. -/
theorem fileRows_around {s t : Session} {h : ReviewHunk} {hs : List ReviewHunk} (member : h ∈ hs)
    (distinct : (hs.map ReviewHunk.id).Nodup)
    (others : ∀ g ∈ hs, g.id ≠ h.id → t.hunkRows g = s.hunkRows g) (before : Option String) :
    ∃ above below, Apart h.id above ∧ Apart h.id below ∧
      s.fileRows before hs = above ++ s.hunkRows h ++ below ∧
      t.fileRows before hs = above ++ t.hunkRows h ++ below := by
  induction hs generalizing before with
  | nil => cases member
  | cons g rest ih =>
    obtain ⟨apart, distinctRest⟩ := List.nodup_cons.mp distinct
    obtain ⟨hereSame, restSame⟩ := List.forall_mem_cons.mp others
    obtain ⟨top, bottom, outside, rows⟩ := fileRows_cons before g rest
    obtain ⟨clearTop, clearBottom⟩ := apart_append.mp (apart_of_outside outside h.id)
    rcases List.mem_cons.mp member with rfl | later
    · -- the identity of the first hunk is none of the later ones, so the rest stays whole
      have different : ∀ g ∈ rest, g.id ≠ h.id := by
        intro g inside same
        exact apart (same ▸ List.mem_map_of_mem inside)
      have same := fileRows_congr (some h.file) fun g inside => restSame g inside (different g inside)
      refine ⟨top, bottom ++ s.fileRows (some h.file) rest, clearTop, ?_, rows s, ?_⟩
      · exact apart_append.mpr ⟨clearBottom, s.apart_fileRows _ different⟩
      · rw [rows, same]
    · have different : g.id ≠ h.id := fun same => apart (same ▸ List.mem_map_of_mem later)
      obtain ⟨above, below, clearAbove, clearBelow, sRows, tRows⟩ :=
        ih later distinctRest restSame (some g.file)
      refine ⟨top ++ s.hunkRows g ++ bottom ++ above, below, ?_, clearBelow, ?_, ?_⟩
      · rw [apart_append, apart_append, apart_append]
        exact ⟨⟨⟨clearTop, s.apart_hunkRows different⟩, clearBottom⟩, clearAbove⟩
      · simp only [rows, sRows, List.append_assoc]
      · simp only [rows, tRows, hereSame different, List.append_assoc]

theorem apart_topRows (id : HunkId) (showHelp : Bool) : Apart id (topRows showHelp) := by
  refine apart_of_outside ?_ id
  intro r member
  obtain ⟨text, rfl⟩ := exists_help_of_mem_topRows member
  rfl

theorem tag_footRows {s : Session} {showHelp : Bool} {r : Row} (member : r ∈ s.footRows showHelp) :
    r.tag = .helpFooter := by
  obtain ⟨text, rfl⟩ := exists_help_of_mem_footRows member
  rfl

theorem tags_footRows (s t : Session) (showHelp : Bool) :
    (s.footRows showHelp).map (·.tag) = (t.footRows showHelp).map (·.tag) := by
  cases showHelp <;> rfl

/-- What is put in among the rows of one hunk is put in among all rows. -/
theorem leads_stream {s t : Session} (sameHunks : t.hunks = s.hunks) {h : ReviewHunk}
    (member : h ∈ s.hunks) (distinct : (s.hunks.map ReviewHunk.id).Nodup)
    (others : ∀ g ∈ s.hunks, g.id ≠ h.id → t.hunkRows g = s.hunkRows g) {i : Insertion}
    (old : s.hunkRows h = i.old) (new : t.hunkRows h = i.new) (showHelp : Bool) :
    ∃ above below, Apart h.id above ∧ Apart h.id below ∧
      (i.within above below).Leads (s.stream showHelp) (t.stream showHelp) := by
  have filled : s.hunks ≠ [] := List.ne_nil_of_mem member
  obtain ⟨above, below, clearAbove, clearBelow, sRows, tRows⟩ :=
    fileRows_around member distinct others none
  have sStream := rows_stream filled showHelp
  have tStream := rows_stream (sameHunks ▸ filled) showHelp
  rw [sRows, old] at sStream
  rw [sameHunks, tRows, new] at tStream
  refine ⟨topRows showHelp ++ above, below, apart_append.mpr ⟨apart_topRows h.id showHelp, clearAbove⟩,
    clearBelow, ⟨s.footRows showHelp, t.footRows showHelp, ?_, ?_, ?_⟩,
    i.after.map (·.tag) ++ below.map (·.tag) ++ (s.footRows showHelp).map (·.tag), ?_, ?_⟩
  · rw [sStream, Insertion.old_within]
    simp only [List.append_assoc]
  · rw [tStream, Insertion.new_within]
    simp only [List.append_assoc]
  · intro r inside
    exact (List.mem_append.mp inside).elim tag_footRows tag_footRows
  · rw [Stream.tags, sStream]
    simp [Insertion.old, Insertion.within]
  · rw [Stream.tags, tStream, s.tags_footRows t]
    simp [Insertion.new, Insertion.within]

end Session

end HunkReview
