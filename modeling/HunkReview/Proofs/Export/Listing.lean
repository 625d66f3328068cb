import HunkReview.Export.Document
import HunkReview.Export.Report
import HunkReview.Proofs.Text.Bytes
import Mathlib.Data.List.Induction
import Mathlib.Data.List.Nodup
import Mathlib.Data.List.Perm.Basic

/-! What exports list. Report and document are written apart, but both list the same files, hunks
and comments: none is lost, and none comes twice. -/
namespace HunkReview

/-! ### Groups of hunks -/

namespace FileGroups

variable {groups : FileGroups} {h : ReviewHunk}

theorem files_insertHunk (file : String) :
    file ∈ (insertHunk h groups).map (·.1) ↔ file = h.file ∨ file ∈ groups.map (·.1) := by
  induction groups with
  | nil => simp [insertHunk]
  | cons g groups ih =>
    rw [insertHunk]
    split_ifs with before same
    · simp
    · simp [same]
    · rw [List.map_cons, List.mem_cons, ih, List.map_cons, List.mem_cons]
      exact or_left_comm

theorem increasing_insertHunk (increasing : (groups.map (·.1)).Pairwise (· < ·)) :
    ((insertHunk h groups).map (·.1)).Pairwise (· < ·) := by
  induction groups with
  | nil => exact List.pairwise_singleton _ _
  | cons g groups ih =>
    obtain ⟨below, rest⟩ := List.pairwise_cons.mp increasing
    rw [insertHunk]
    split_ifs with before same
    · refine List.pairwise_cons.mpr ⟨fun file member => ?_, increasing⟩
      rcases List.mem_cons.mp member with rfl | later
      · exact before
      · exact String.lt_trans before (below file later)
    · exact increasing
    · refine List.pairwise_cons.mpr ⟨fun file member => ?_, ih rest⟩
      rcases (files_insertHunk file).mp member with rfl | later
      · exact Std.lt_of_le_of_ne (String.not_lt.mp before) (Ne.symm same)
      · exact below file later

/-- The hunk comes at the end of its file's group, and the other groups stay. -/
theorem mem_insertHunk (increasing : (groups.map (·.1)).Pairwise (· < ·))
    {g : String × List ReviewHunk} (member : g ∈ insertHunk h groups) :
    (g ∈ groups ∧ g.1 ≠ h.file) ∨
      (g = (h.file, [h]) ∧ h.file ∉ groups.map (·.1)) ∨
      ∃ hunks, (h.file, hunks) ∈ groups ∧ g = (h.file, hunks ++ [h]) := by
  induction groups with
  | nil => exact .inr (.inl ⟨List.mem_singleton.mp member, List.not_mem_nil⟩)
  | cons first groups ih =>
    obtain ⟨below, rest⟩ := List.pairwise_cons.mp increasing
    rw [insertHunk] at member
    split_ifs at member with before same
    · have absent : ∀ file ∈ (first :: groups).map (·.1), h.file < file := by
        intro file there
        rcases List.mem_cons.mp there with rfl | later
        · exact before
        · exact String.lt_trans before (below file later)
      rcases List.mem_cons.mp member with rfl | there
      · exact .inr (.inl ⟨rfl, fun there => String.lt_irrefl _ (absent _ there)⟩)
      · exact .inl ⟨there, (String.ne_of_lt (absent _ (List.mem_map_of_mem there))).symm⟩
    · rcases List.mem_cons.mp member with rfl | there
      · exact .inr (.inr ⟨first.2, by rw [same]; exact List.mem_cons_self, by rw [same]⟩)
      · refine .inl ⟨List.mem_cons_of_mem _ there, ?_⟩
        rw [same]
        exact (String.ne_of_lt (below _ (List.mem_map_of_mem there))).symm
    · rcases List.mem_cons.mp member with rfl | there
      · exact .inl ⟨List.mem_cons_self, Ne.symm same⟩
      · rcases ih rest there with ⟨there, other⟩ | ⟨new, absent⟩ | ⟨hunks, there, grown⟩
        · exact .inl ⟨List.mem_cons_of_mem _ there, other⟩
        · refine .inr (.inl ⟨new, fun there => ?_⟩)
          exact (List.mem_cons.mp there).elim same absent
        · exact .inr (.inr ⟨hunks, List.mem_cons_of_mem _ there, grown⟩)

/-- The groups are the files of the hunks in increasing order, each with all of its hunks in their
order. -/
structure Of (groups : FileGroups) (hs : List ReviewHunk) : Prop where
  increasing : (groups.map (·.1)).Pairwise (· < ·)
  files : ∀ file, file ∈ groups.map (·.1) ↔ ∃ h ∈ hs, h.file = file
  hunks : ∀ g ∈ groups, g.2 = hs.filter (·.file == g.1)

theorem Of.insertHunk {hs : List ReviewHunk} (of : groups.Of hs) (h : ReviewHunk) :
    (insertHunk h groups).Of (hs ++ [h]) where
  increasing := increasing_insertHunk of.increasing
  files := by
    intro file
    rw [files_insertHunk, of.files]
    simp only [List.mem_append, List.mem_singleton, or_and_right, exists_or, exists_eq_left]
    exact or_comm.trans (or_congr_right eq_comm)
  hunks := by
    intro g member
    rw [List.filter_append]
    rcases mem_insertHunk of.increasing member with
      ⟨there, other⟩ | ⟨rfl, absent⟩ | ⟨hunks, there, rfl⟩
    · have kept : [h].filter (·.file == g.1) = [] := by simp [Ne.symm other]
      rw [kept, List.append_nil, of.hunks g there]
    · have none : hs.filter (·.file == h.file) = [] := by
        refine List.filter_eq_nil_iff.mpr fun g before same => absent ?_
        exact (of.files _).mpr ⟨g, before, eq_of_beq same⟩
      simp [none]
    · have before : hunks = hs.filter (·.file == h.file) := of.hunks _ there
      simp [before]

end FileGroups

/-- Hunk after hunk, the groups hold the hunks so far. -/
theorem Session.byFile_of (s : Session) : s.byFile.Of s.hunks := by
  unfold byFile
  induction s.hunks using List.reverseRecOn with
  | nil => exact ⟨List.Pairwise.nil, by simp, by simp⟩
  | append_singleton hs h ih =>
    rw [List.foldl_append]
    exact ih.insertHunk h

/-- Each hunk is in the group of its file. -/
theorem Session.exists_group {s : Session} {h : ReviewHunk} (inside : h ∈ s.hunks) :
    ∃ group ∈ s.byFile, group.1 = h.file ∧ h ∈ group.2 := by
  have of := s.byFile_of
  obtain ⟨group, there, file⟩ := List.mem_map.mp ((of.files h.file).mpr ⟨h, inside, rfl⟩)
  refine ⟨group, there, file, ?_⟩
  rw [of.hunks group there, List.mem_filter]
  exact ⟨inside, beq_iff_eq.mpr file.symm⟩

/-! ### Listings -/

abbrev Listing := List (String × List (ReviewHunk × List Comment))

namespace Listing

def hunks (l : Listing) : List ReviewHunk :=
  l.flatMap fun e => e.2.map (·.1)

def comments (l : Listing) : List Comment :=
  l.flatMap fun e => e.2.flatMap (·.2)

/-- What there is to list of a session: its files in increasing order of bytes, under each its
hunks in their order, and under each hunk the comments on its identity in the order of writing. -/
structure Of (l : Listing) (s : Session) : Prop where
  increasing : (l.map (·.1)).Pairwise fun f g => Text.bytes f < Text.bytes g
  files : ∀ file, file ∈ l.map (·.1) ↔ ∃ h ∈ s.hunks, h.file = file
  hunks : ∀ e ∈ l, e.2.map (·.1) = s.hunks.filter (·.file == e.1)
  comments : ∀ e ∈ l, ∀ entry ∈ e.2, entry.2 = s.comments.filter (·.hunk == entry.1.id)

/-- Parts of a list taken by distinct keys make up the part with any of the keys. -/
theorem perm_flatMap_filter {α β : Type} [DecidableEq β] (key : α → β) (xs : List α) {ks : List β}
    (distinct : ks.Nodup) :
    (ks.flatMap fun k => xs.filter (key · == k)).Perm (xs.filter (key · ∈ ks)) := by
  induction ks with
  | nil => simp
  | cons k ks ih =>
    obtain ⟨new, rest⟩ := List.nodup_cons.mp distinct
    have first : (xs.filter (key · ∈ k :: ks)).filter (key · == k) = xs.filter (key · == k) := by
      rw [List.filter_filter]
      exact List.filter_congr fun x _ => by by_cases same : key x = k <;> simp [same]
    have others : (xs.filter (key · ∈ k :: ks)).filter (!key · == k) = xs.filter (key · ∈ ks) := by
      rw [List.filter_filter]
      refine List.filter_congr fun x _ => ?_
      by_cases same : key x = k
      · simp [same, new]
      · simp [same]
    rw [List.flatMap_cons]
    refine ((ih rest).append_left _).trans ?_
    rw [← first, ← others]
    exact List.filter_append_perm _ _

variable {l : Listing} {s : Session}

theorem Of.nodup_files (of : l.Of s) : (l.map (·.1)).Nodup := by
  refine List.Pairwise.imp ?_ of.increasing
  rintro file _ less rfl
  exact List.lt_irrefl _ less

/-- The files alone say what is under them. -/
theorem Of.eq_map (of : l.Of s) :
    l = (l.map (·.1)).map fun file => (file, (s.hunks.filter (·.file == file)).map fun h =>
      (h, s.comments.filter (·.hunk == h.id))) := by
  rw [List.map_map]
  refine (List.map_id l).symm.trans (List.map_congr_left fun e member => Prod.ext rfl ?_)
  dsimp only [id, Function.comp]
  rw [← of.hunks e member, List.map_map]
  refine (List.map_id _).symm.trans (List.map_congr_left fun entry there => ?_)
  exact Prod.ext rfl (of.comments e member entry there)

/-- There is one way to list a session. -/
theorem Of.unique {m : Listing} (of : l.Of s) (other : m.Of s) : l = m := by
  have same : (l.map (·.1)).Perm (m.map (·.1)) :=
    (List.perm_ext_iff_of_nodup of.nodup_files other.nodup_files).mpr fun file =>
      (of.files file).trans (other.files file).symm
  have files : l.map (·.1) = m.map (·.1) :=
    same.eq_of_pairwise (fun f g _ _ less more => absurd more (List.lt_asymm less))
      of.increasing other.increasing
  rw [of.eq_map, other.eq_map, files]

/-- Every hunk is listed just once. -/
theorem Of.perm_hunks (of : l.Of s) : l.hunks.Perm s.hunks := by
  have groups : l.hunks = (l.map (·.1)).flatMap fun file => s.hunks.filter (·.file == file) := by
    rw [List.flatMap_map]
    exact List.flatMap_congr of.hunks
  have all : s.hunks.filter (·.file ∈ l.map (·.1)) = s.hunks :=
    List.filter_eq_self.mpr fun h member => by
      simpa only [decide_eq_true_eq] using (of.files h.file).mpr ⟨h, member, rfl⟩
  have parts := perm_flatMap_filter (fun h : ReviewHunk => h.file) s.hunks of.nodup_files
  rwa [← groups, all] at parts

/-- When no two hunks share an identity, every comment on one of them is listed just once. -/
theorem Of.perm_comments (of : l.Of s) (distinct : (s.hunks.map ReviewHunk.id).Nodup) :
    l.comments.Perm (s.comments.filter (·.hunk ∈ s.hunks.map ReviewHunk.id)) := by
  have under : l.comments = l.hunks.flatMap fun h => s.comments.filter (·.hunk == h.id) := by
    rw [Listing.comments, Listing.hunks, List.flatMap_assoc]
    refine List.flatMap_congr fun e member => ?_
    rw [List.flatMap_map]
    exact List.flatMap_congr (of.comments e member)
  have parts := perm_flatMap_filter Comment.hunk s.comments distinct
  rw [List.flatMap_map] at parts
  rw [under]
  exact (of.perm_hunks.flatMap_right _).trans parts

end Listing

/-! ### The listing of an export -/

namespace Session

def listing (s : Session) : Listing :=
  s.byFile.map fun (file, hunks) => (file, hunks.map fun h => (h, s.commentsFor h.id))

theorem listing_of (s : Session) : s.listing.Of s := by
  have files : s.listing.map (·.1) = s.byFile.map (·.1) := by
    rw [listing, List.map_map]
    rfl
  constructor
  · rw [files]
    exact s.byFile_of.increasing.imp Text.bytes_lt
  · rw [files]
    exact s.byFile_of.files
  · intro e member
    obtain ⟨group, there, rfl⟩ := List.mem_map.mp member
    rw [← s.byFile_of.hunks group there]
    exact List.map_map.trans (List.map_id _)
  · intro e member entry there
    obtain ⟨group, -, rfl⟩ := List.mem_map.mp member
    obtain ⟨h, -, rfl⟩ := List.mem_map.mp there
    rfl

/-- A file whose hunks are apart in the diff is listed once. -/
example :
    let diff := "diff --git a/g b/g\n@@ -1 +1 @@\n-a\n" ++
      "diff --git a/f b/f\n@@ -3 +3 @@\n-b\ndiff --git a/g b/g\n@@ -5 +5 @@\n-c\n"
    (applyDiff {} (parseDiff diff)).listing.map (fun e => (e.1, e.2.map (·.1.newStart.val))) =
      [("f", [3]), ("g", [1, 5])] := by decide +kernel

def reportHunk (s : Session) (entry : ReviewHunk × List Comment) : String :=
  "### " ++ (s.hunkSection entry.1).title ++ "\n\n" ++ (s.hunkSection entry.1).verdictLine ++
    "\n\n" ++ String.join (entry.2.map Comment.item)

def reportFile (s : Session) (e : String × List (ReviewHunk × List Comment)) : String :=
  "## " ++ e.1 ++ "\n\n" ++ String.join (e.2.map s.reportHunk)

def documentHunk (entry : ReviewHunk × List Comment) : Json :=
  .object
    [("id", .text entry.1.id.text), ("context", .text entry.1.context),
      ("old_lines", LineNo.rangeJson entry.1.oldRange),
      ("new_lines", LineNo.rangeJson entry.1.newRange), ("status", .text entry.1.verdict.name),
      ("staging", .text entry.1.staging.name), ("comments", .array (entry.2.map Comment.toJson))]

def documentFile (e : String × List (ReviewHunk × List Comment)) : String × Json :=
  (e.1, .object [("hunks", .array (e.2.map documentHunk))])

theorem sections_report (s : Session) (now : Instant) :
    (s.report now).files.map FileSection.text = s.listing.map s.reportFile := by
  rw [report, listing, List.map_map, List.map_map]
  refine List.map_congr_left fun group _ => ?_
  dsimp only [Function.comp, FileSection.text, reportFile]
  rw [List.map_map, List.map_map]
  rfl

theorem files_document (s : Session) (now : Instant) :
    (s.document now).files.map (fun (file, hunks) =>
      (file, Json.object [("hunks", .array (hunks.map HunkEntry.toJson))])) =
      s.listing.map documentFile := by
  rw [document, listing, List.map_map, List.map_map]
  refine List.map_congr_left fun group _ => ?_
  dsimp only [Function.comp, documentFile]
  rw [List.map_map, List.map_map]
  rfl

theorem exportReport_eq (s : Session) (now : Instant) :
    s.exportReport now = Report.text { s.report now with files := [] } ++
      String.join (s.listing.map s.reportFile) := by
  have summary : Report.summaryText { s.report now with files := [] } =
      (s.report now).summaryText := rfl
  rw [← s.sections_report now]
  unfold exportReport Report.text
  rw [summary]
  dsimp only
  split_ifs with none
  · have empty : s.hunks = [] := List.length_eq_zero_iff.mp none
    have files : (s.report now).files = [] := by
      rw [report, byFile, empty]
      rfl
    rw [files, List.map_nil, String.join_nil, String.append_empty]
  · rw [List.map_nil, String.join_nil, String.append_empty]

/-- The exports of a session list the same: all that there is to list, nothing else, nothing
twice. -/
theorem exports_list (s : Session) (now : Instant) :
    ∃ l : Listing, l.Of s ∧
      s.exportReport now =
        Report.text { s.report now with files := [] } ++ String.join (l.map s.reportFile) ∧
      s.exportDocument now = Json.print (.object
        [("version", .number 1), ("timestamp", .text now.withOffset),
          ("original_request", .ofOption Json.text s.request),
          ("overall_feedback", .ofOption Json.text s.feedback),
          ("files", .object (l.map documentFile))]) ∧
      l.hunks.Perm s.hunks ∧
      ((s.hunks.map ReviewHunk.id).Nodup →
        l.comments.Perm (s.comments.filter (·.hunk ∈ s.hunks.map ReviewHunk.id))) := by
  refine ⟨s.listing, s.listing_of, s.exportReport_eq now, ?_, s.listing_of.perm_hunks,
    s.listing_of.perm_comments⟩
  rw [exportDocument, SessionDocument.toJson, s.files_document now]
  rfl

end Session

/-! ### A comment in the report -/

/-- The text of a member is a stretch of all the texts. -/
theorem exists_join_of_mem {α : Type} {a : α} {as : List α} (member : a ∈ as) (text : α → String) :
    ∃ above below, String.join (as.map text) = above ++ text a ++ below := by
  obtain ⟨before, after, rfl⟩ := List.append_of_mem member
  refine ⟨String.join (before.map text), String.join (after.map text), ?_⟩
  simp [String.append_assoc]

/-- The first line, and each of the others indented below it. -/
theorem join_indented (lines : List String) (rest : String) :
    lines.head?.getD "" ++ ("\n" ++ (String.join (lines.tail.map fun l => "  " ++ (l ++ "\n")) ++
      rest)) = "\n  ".intercalate lines ++ ("\n" ++ rest) := by
  cases lines with
  | nil => simp
  | cons first lines =>
    induction lines generalizing first with
    | nil => simp
    | cons second lines ih =>
      have indent (text : String) : "\n" ++ ("  " ++ text) = "\n  " ++ text := by
        rw [← String.append_assoc]
        rfl
      rw [String.intercalate_cons_cons, String.append_assoc, String.append_assoc, ← ih second]
      simp [String.append_assoc, indent]

/-- A comment's item shows its label and the lines of its text. -/
theorem Comment.exists_item (c : Comment) :
    ∃ rest, c.item = "- **" ++ c.label.getD "[hunk]" ++ "** " ++
      "\n  ".intercalate (Text.stringLines c.text) ++ "\n" ++ rest := by
  simp only [item, String.append_assoc, join_indented]
  exact ⟨_, rfl⟩

namespace Session

/-- The report has the hunk under its file, after the file's earlier hunks, with the comments. -/
def Reports (s : Session) (now : Instant) (h : ReviewHunk) (comments : List Comment) : Prop :=
  ∃ earlier later, s.hunks.filter (·.file == h.file) = earlier ++ h :: later ∧
    ∃ above below, s.exportReport now =
      above ++ "## " ++ h.file ++ "\n\n" ++
        String.join (earlier.map fun g => (s.hunkSection g).text) ++
        "### " ++ (s.hunkSection h).title ++ "\n\n" ++ (s.hunkSection h).verdictLine ++ "\n\n" ++
        String.join (comments.map Comment.item) ++ below

theorem exportReport_around {s : Session} {e : String × List (ReviewHunk × List Comment)}
    (there : e ∈ s.listing) (now : Instant) :
    ∃ above below, s.exportReport now = above ++ s.reportFile e ++ below := by
  obtain ⟨above, below, files⟩ := exists_join_of_mem there s.reportFile
  refine ⟨Report.text { s.report now with files := [] } ++ above, below, ?_⟩
  rw [exportReport_eq, files]
  simp only [String.append_assoc]

theorem reports_of_mem {s : Session} {h : ReviewHunk} (inside : h ∈ s.hunks) (now : Instant) :
    s.Reports now h (s.commentsFor h.id) := by
  obtain ⟨⟨_, hunks⟩, there, rfl, member⟩ := exists_group inside
  obtain ⟨above, below, report⟩ := exportReport_around (List.mem_map_of_mem there) now
  obtain ⟨earlier, later, rfl⟩ := List.append_of_mem member
  have texts : s.reportHunk ∘ (fun g => (g, s.commentsFor g.id)) =
      fun g => (s.hunkSection g).text := rfl
  refine ⟨earlier, later, (s.byFile_of.hunks _ there).symm, above,
    String.join (later.map fun g => (s.hunkSection g).text) ++ below, ?_⟩
  rw [report, reportFile, List.map_map, texts]
  simp [HunkSection.text, hunkSection, String.append_assoc]

/-- A comment on a hunk of the diff is in the report, with its label and its text. -/
theorem exists_exportReport {s : Session} {c : Comment} (written : c ∈ s.comments)
    (known : ∃ h ∈ s.hunks, h.id = c.hunk) (now : Instant) :
    ∃ above below, s.exportReport now =
      above ++ "- **" ++ c.label.getD "[hunk]" ++ "** " ++
        "\n  ".intercalate (Text.stringLines c.text) ++ "\n" ++ below := by
  obtain ⟨h, inside, same⟩ := known
  obtain ⟨_, _, _, _, _, hunk⟩ := reports_of_mem inside now
  obtain ⟨above, below, report⟩ : ∃ above below, s.exportReport now =
      above ++ String.join ((s.commentsFor h.id).map Comment.item) ++ below := ⟨_, _, hunk⟩
  have member : c ∈ s.commentsFor h.id := by simp [commentsFor, written, same]
  obtain ⟨earlier, later, items⟩ := exists_join_of_mem member Comment.item
  obtain ⟨rest, item⟩ := c.exists_item
  refine ⟨above ++ earlier, rest ++ later ++ below, ?_⟩
  rw [report, items, item]
  simp only [String.append_assoc]

end Session

end HunkReview
