import HunkReview.Proofs.Desk.Prompted
import HunkReview.Proofs.Stream.Comments
import HunkReview.Proofs.Stream.Outline

/-! What a selection covers. It goes from the row at which it was started to the row under the
cursor, and joins the numbers of their lines. They are lines of the comment's file when both rows are
of one file; nothing else keeps a selection from going over into another one. -/
namespace HunkReview

/-! ### Ends of a selection -/

namespace Selection

structure Joins (s : Selection) (x y : LineNo) : Prop where
  ordered : s.first.val ≤ s.last.val
  ends : s.first = x ∧ s.last = y ∨ s.first = y ∧ s.last = x

theorem joins_spanning (side : Side) (x y : LineNo) :
    (spanning side x y).Joins x y ∧ (spanning side x y).side = side := by
  unfold spanning
  split
  · next ordered => exact ⟨⟨ordered, .inl ⟨rfl, rfl⟩⟩, rfl⟩
  · next unordered => exact ⟨⟨Nat.le_of_not_le unordered, .inr ⟨rfl, rfl⟩⟩, rfl⟩

/-- A selection joins the numbers that two lines have on its side. -/
theorem joins_between {a b : NumberedLine} {s : Selection} (found : between a b = some s) :
    ∃ x y, a.lineOn s.side = some x ∧ b.lineOn s.side = some y ∧ s.Joins x y := by
  have spans (side : Side) {x y : LineNo} (numberA : a.lineOn side = some x)
      (numberB : b.lineOn side = some y) (same : some (spanning side x y) = some s) :
      ∃ x y, a.lineOn s.side = some x ∧ b.lineOn s.side = some y ∧ s.Joins x y := by
    obtain ⟨joins, ofSide⟩ := joins_spanning side x y
    obtain rfl := Option.some.inj same
    exact ⟨x, y, ofSide.symm ▸ numberA, ofSide.symm ▸ numberB, joins⟩
  unfold between at found
  split at found
  · next numberA numberB => exact spans .new numberA numberB found
  · next numberA numberB _ => exact spans .old numberA numberB found
  · cases found

end Selection

/-! ### Lines in a view -/

namespace View

/-- The view shows a line of the file that has the number on the side. -/
def HasLine (v : View) (file : String) (side : Side) (n : LineNo) : Prop :=
  ∃ shown ∈ v.stream.tags.filterMap Tag.shownLine?,
    shown.1.file = file ∧ shown.2.lineOn side = some n

instance (v : View) (file : String) (side : Side) (n : LineNo) :
    Decidable (v.HasLine file side n) :=
  inferInstanceAs (Decidable (∃ shown ∈ _, _))

def file? (v : View) (row : Nat) : Option String :=
  (v.tag? row).bind (·.file?)

/-- What a selection between two rows covers for a comment on the file: each end is the number of a
line of its own row's file. Both are lines of the comment's file if the selection began in it. -/
structure Selects (v : View) (start stop : Nat) (file : String) (s : Selection) : Prop where
  ordered : s.first.val ≤ s.last.val
  stop : v.file? stop = some file
  ends : ∃ other x y, v.file? start = some other ∧ v.HasLine other s.side x ∧
    v.HasLine file s.side y ∧ s.Joins x y
  inside : v.file? start = some file →
    v.HasLine file s.side s.first ∧ v.HasLine file s.side s.last

end View

theorem Tag.file?_of_hunk? {tag : Tag} {id : HunkId} (about : tag.hunk? = some id) :
    tag.file? = some id.file := by
  cases tag <;> cases about <;> rfl

namespace Desk

/-- A row with a line is about a line that is shown. -/
theorem Fresh.hasLine {d : Desk} (fresh : d.Fresh) {row : Nat} {tag : Tag}
    (there : d.view.tag? row = some tag) {l : NumberedLine} (line : tag.line? = some l) :
    ∃ file, tag.file? = some file ∧
      ∀ side n, l.lineOn side = some n → d.view.HasLine file side n := by
  obtain ⟨r, rfl, origin⟩ := fresh.origin there
  obtain ⟨id, about⟩ : ∃ id, r.tag.hunk? = some id := by
    cases tag : r.tag <;> rw [tag] at line <;> first | exact ⟨_, rfl⟩ | cases line
  obtain ⟨h, inside, same, numbered⟩ := origin.line_mem about
  have lines : (id, l) ∈ d.view.stream.tags.filterMap Tag.shownLine? := by
    have all : (d.session.render d.settings.showHelp).2.tags.filterMap Tag.shownLine? = _ :=
      d.session.filterMap_shownLine?_stream d.settings.showHelp
    rw [fresh.rendered] at all
    rw [all]
    exact List.mem_flatMap.mpr
      ⟨h, inside, List.mem_map.mpr ⟨l, numbered l line, by rw [same]⟩⟩
  exact ⟨id.file, Tag.file?_of_hunk? about, fun side n number => ⟨(id, l), lines, rfl, number⟩⟩

/-- The selection of a comment that is asked for covers the rows from where it was started up to the
cursor. -/
theorem Fresh.selects {d : Desk} (fresh : d.Fresh) {place : Anchor} {s : Selection}
    (asks : d.Asks place (some s)) :
    ∃ row, d.anchor = some row ∧ d.view.Selects row d.cursor place.file s := by
  obtain ⟨-, here, selected⟩ := asks
  obtain ⟨tag, under, placed⟩ := Option.bind_eq_some_iff.mp here
  obtain ⟨id, about, rfl⟩ := Option.map_eq_some_iff.mp placed
  have ends := selected.symm
  simp only [selectionTo, Option.bind_eq_bind, Option.bind_eq_some_iff] at ends
  obtain ⟨row, started, tagA, there, a, lineA, b, lineB, between⟩ := ends
  obtain ⟨x, y, numberA, numberB, joins⟩ := Selection.joins_between between
  obtain ⟨other, ofOther, shownA⟩ := fresh.hasLine there lineA
  obtain ⟨file, ofFile, shownB⟩ := fresh.hasLine under lineB
  obtain rfl : file = id.file := Option.some.inj (ofFile.symm.trans (Tag.file?_of_hunk? about))
  have start : d.view.file? row = some other := by rw [View.file?, there]; exact ofOther
  have stop : d.view.file? d.cursor = some id.file :=
    (congrArg (·.bind (·.file?)) under).trans ofFile
  have first := shownA _ x numberA
  have last := shownB _ y numberB
  refine ⟨row, started, joins.ordered, stop, ⟨other, x, y, start, first, last, joins⟩, ?_⟩
  intro ownFile
  obtain rfl : other = id.file := Option.some.inj (start.symm.trans ownFile)
  rcases joins.ends with ⟨rfl, rfl⟩ | ⟨rfl, rfl⟩
  · exact ⟨first, last⟩
  · exact ⟨last, first⟩

end Desk

namespace Loop

/-- In all runs, a comment with a selection was asked for at a desk where one had been started, and
the selection goes from there to the cursor, which was in the comment's file. -/
theorem selections_run (session : Session) (source : Source) (settings : Settings)
    (steps : List Step) :
    ∃ added, (run session source settings steps).desk.session.comments = session.comments ++ added ∧
      ∀ c ∈ added, ∀ s, c.selection = some s → ∃ before x, before ++ [x] <+: steps ∧
        let d := (run session source settings before).desk
        d.mode = .normal ∧
          (∃ place, place.file = c.file ∧
            (run session source settings (before ++ [x])).desk.mode.asked? = some (place, some s)) ∧
          ∃ row, d.anchor = some row ∧ d.view.Selects row d.cursor c.file s := by
  obtain ⟨added, comments, asked⟩ := (fromPrompts_run session source settings steps).comments
  refine ⟨added, comments, fun c member s selected => ?_⟩
  obtain ⟨stamp, place, text, selection, rfl, before, x, early, asks, open_⟩ := asked c member
  obtain rfl : selection = some s := selected
  exact ⟨before, x, early, asks.normal, ⟨place, rfl, open_⟩,
    (fresh_run session source settings before).selects asks⟩

def twoFiles : Session :=
  Session.applyDiff {} (parseDiff
    "diff --git a/f b/f\n@@ -40 +40 @@\n x\ndiff --git a/g b/g\n@@ -1 +1 @@\n y\n")

def pressKey (key : Key) : Step :=
  .press ⟨0, {}⟩ ⟨key, false, false⟩ noWorld

def acrossFiles : List Step :=
  "jjvjjjj".toList.map fun c => pressKey (.char c)

/-- The comment on the second file gets a selection up to line 40, which is a line of the first. -/
theorem selection_crosses_files :
    let run := run twoFiles ⟨"/repo", .clamp 3, .unstaged⟩ { showHelp := false }
    let d := (run acrossFiles).desk
    d.mode = .normal ∧
      (run (acrossFiles ++ [pressKey (.char 'c')])).desk.mode.asked? =
        some (⟨⟨"g", .clamp 1⟩, "g", some ⟨.context, some (.clamp 1), some (.clamp 1), "y"⟩⟩,
          some ⟨.clamp 1, .clamp 40, .new⟩) ∧
      (run (acrossFiles ++ [.char 'c', .char '!', .enter].map pressKey)).desk.session.comments.map
        (fun c => (c.file, c.selection)) = [("g", some ⟨.clamp 1, .clamp 40, .new⟩)] ∧
      ¬d.view.HasLine "g" .new (.clamp 40) := by
  decide +kernel

end Loop

end HunkReview
