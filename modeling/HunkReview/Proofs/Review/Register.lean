import HunkReview.Proofs.Diff.Identity
import HunkReview.Proofs.Review.Added

/-! Reviews that know hunks by their written identities alone. A register compares texts only, and goes
along with the session in every history. So what it keeps under the text of a file and a line is what was
done to the hunks of that file and line, and never to others. -/
namespace HunkReview

/-! ### Registers -/

structure MarkedHunk extends Hunk where
  marks : Staging × Verdict
  deriving DecidableEq, Repr

/-- What a review keeps of its hunks, by written identity. -/
structure Register where
  hunks : List MarkedHunk := []
  marks : String → Staging × Verdict := fun _ => default
  comments : List Comment := []
  label : Option String := none
  refreshing : Bool := false

namespace Register

def hunk? (w : Register) (key : String) : Option MarkedHunk :=
  w.hunks.find? (·.id.text == key)

def commentsFor (w : Register) (key : String) : List Comment :=
  w.comments.filter (·.hunk.text == key)

def start (w : Register) (label : String) : Register :=
  if w.label = some label then w else { label := some label, refreshing := w.refreshing }

def applyDiff (w : Register) (hunks : List Hunk) : Register :=
  { w with hunks := hunks.map fun h => { toHunk := h, marks := w.marks h.id.text } }

def finishRefresh (w : Register) : Except FetchError String → Register
  | .ok text => { w with refreshing := false }.applyDiff (parseDiff text)
  | .error _ => { w with refreshing := false }.applyDiff []

def markFirst (key : String) (change : Staging × Verdict → Staging × Verdict)
    (hs : List MarkedHunk) : List MarkedHunk :=
  hs.modify (hs.findIdx (·.id.text == key)) fun h => { h with marks := change h.marks }

def mark (w : Register) (key : String) (change : Staging × Verdict → Staging × Verdict) : Register :=
  if (w.hunk? key).isSome then
    { w with
      hunks := markFirst key change w.hunks
      marks := Function.update w.marks key (change (w.marks key)) }
  else w

def setStaging (w : Register) (key : String) (staging : Staging) : Register :=
  w.mark key fun marks => (staging, marks.2)

def setVerdict (w : Register) (key : String) (verdict : Verdict) : Register :=
  w.mark key fun marks => (marks.1, verdict)

def addComment (w : Register) (c : Comment) : Register :=
  if (w.hunk? c.hunk.text).isSome then { w with comments := w.comments ++ [c] } else w

def step (w : Register) : Action → Register
  | .start label => w.start label
  | .applyDiff text => w.applyDiff (parseDiff text)
  | .tryBeginRefresh => { w with refreshing := true }
  | .finishRefresh result => w.finishRefresh result
  | .refresh result => if w.refreshing then w else w.finishRefresh result
  | .stage id => w.setStaging id.text .staged
  | .discard id => w.setStaging id.text .discarded
  | .clearStaging id => w.setStaging id.text .pending
  | .setVerdict id verdict => w.setVerdict id.text verdict
  | .clearVerdict id => w.setVerdict id.text .pending
  | .addComment c => w.addComment c
  | .setFeedback _ | .setRequest _ | .render _ => w

def of (actions : List Action) : Register :=
  actions.foldl step {}

end Register

/-! ### Registers and sessions -/

def ReviewHunk.marked (h : ReviewHunk) : MarkedHunk :=
  { h with marks := h.marks }

@[simp] theorem ReviewHunk.id_marked (h : ReviewHunk) : h.marked.id = h.id := rfl

@[simp] theorem ReviewHunk.marks_marked (h : ReviewHunk) : h.marked.marks = h.marks := rfl

namespace Register

theorem markFirst_marked {id : HunkId} {change : Staging × Verdict → Staging × Verdict}
    {changed : ReviewHunk → ReviewHunk}
    (alike : ∀ h, (changed h).marked = { h.marked with marks := change h.marks })
    (hs : List ReviewHunk) :
    markFirst id.text change (hs.map ReviewHunk.marked) =
      (Session.changeFirst id changed hs).map ReviewHunk.marked := by
  unfold markFirst
  induction hs with
  | nil => rfl
  | cons h hs ih =>
    by_cases here : h.id = id
    · simp [Session.changeFirst, List.findIdx_cons, here, alike]
    · have away : (h.id == id) = false := beq_false_of_ne here
      simpa [Session.changeFirst, List.findIdx_cons, away] using ih

/-- The register tells by texts what the session tells by identities. -/
structure Mirrors (w : Register) (s : Session) : Prop where
  hunks : w.hunks = s.hunks.map ReviewHunk.marked
  marks : ∀ id, w.marks id.text = s.marks id
  comments : w.comments = s.comments
  label : w.label = s.label
  refreshing : w.refreshing = s.refreshing

namespace Mirrors

variable {w : Register} {s : Session}

theorem hunk?_text (mirrors : w.Mirrors s) (id : HunkId) :
    w.hunk? id.text = (s.hunk? id).map ReviewHunk.marked := by
  have key : ((fun h => h.id.text == id.text) ∘ ReviewHunk.marked) = fun h => h.id == id := by
    funext h
    simp
  rw [hunk?, mirrors.hunks, List.find?_map, key, Session.hunk?]

theorem isSome_hunk? (mirrors : w.Mirrors s) (id : HunkId) :
    (w.hunk? id.text).isSome = (s.hunk? id).isSome := by
  simp [mirrors.hunk?_text]

theorem commentsFor_text (mirrors : w.Mirrors s) (id : HunkId) :
    w.commentsFor id.text = s.commentsFor id := by
  simp [commentsFor, Session.commentsFor, mirrors.comments]

theorem start (mirrors : w.Mirrors s) (label : String) :
    (w.start label).Mirrors (s.start label).1 := by
  by_cases same : s.label = some label
  · simpa [Register.start, Session.start, mirrors.label, same] using mirrors
  · simp only [Register.start, Session.start, mirrors.label, same, if_false]
    exact ⟨rfl, fun _ => rfl, rfl, rfl, mirrors.refreshing⟩

theorem applyDiff (mirrors : w.Mirrors s) (hunks : List Hunk) :
    (w.applyDiff hunks).Mirrors (s.applyDiff hunks) where
  hunks := by
    simp [Register.applyDiff, Session.applyDiff, ReviewHunk.marked, ReviewHunk.marks, mirrors.marks,
      Session.marks]
  marks := mirrors.marks
  comments := mirrors.comments
  label := mirrors.label
  refreshing := mirrors.refreshing

theorem guard (mirrors : w.Mirrors s) (refreshing : Bool) :
    { w with refreshing }.Mirrors { s with refreshing } :=
  { mirrors with refreshing := rfl }

theorem tryBeginRefresh (mirrors : w.Mirrors s) :
    { w with refreshing := true }.Mirrors s.tryBeginRefresh.1 := by
  unfold Session.tryBeginRefresh
  split
  · next busy => exact { mirrors with refreshing := busy.symm }
  · exact mirrors.guard true

theorem finishRefresh (mirrors : w.Mirrors s) (result : Except FetchError String) :
    (w.finishRefresh result).Mirrors (s.finishRefresh result).1 := by
  cases result with
  | ok text => exact (mirrors.guard false).applyDiff (parseDiff text)
  | error e => exact (mirrors.guard false).applyDiff []

theorem refresh (mirrors : w.Mirrors s) (result : Except FetchError String) :
    (if w.refreshing then w else w.finishRefresh result).Mirrors
      (Id.run (s.refresh (pure result))).1 := by
  unfold Session.refresh Session.tryBeginRefresh
  rw [mirrors.refreshing]
  cases s.refreshing with
  | true => exact mirrors
  | false =>
    cases result with
    | ok text => exact mirrors.finishRefresh (.ok text)
    | error e => exact mirrors.finishRefresh (.error e)

/-- The first hunk of an identity is marked, and so is what is kept for the identity. -/
theorem mark (mirrors : w.Mirrors s) {id : HunkId} (known : (s.hunk? id).isSome)
    {change : Staging × Verdict → Staging × Verdict} (changed : ReviewHunk → ReviewHunk)
    (alike : ∀ h, (changed h).marked = { h.marked with marks := change h.marks })
    {stagings : Marks Staging} {verdicts : Marks Verdict}
    (here : (stagings.get id, verdicts.get id) = change (s.marks id))
    (away : ∀ other, other ≠ id → (stagings.get other, verdicts.get other) = s.marks other) :
    (w.mark id.text change).Mirrors
      { s with hunks := Session.changeFirst id changed s.hunks, stagings, verdicts } := by
  rw [Register.mark, if_pos (mirrors.isSome_hunk? id ▸ known)]
  constructor
  · rw [mirrors.hunks]
    exact markFirst_marked alike s.hunks
  · intro other
    change Function.update w.marks id.text _ other.text = (stagings.get other, verdicts.get other)
    -- what is kept under any other text was not written over, as texts differ when identities do
    by_cases same : other = id
    · rw [same, Function.update_self, mirrors.marks, here]
    · rw [Function.update_of_ne (mt HunkId.text_inj.mp same), mirrors.marks, away other same]
  · exact mirrors.comments
  · exact mirrors.label
  · exact mirrors.refreshing

theorem mark_unknown (mirrors : w.Mirrors s) {id : HunkId} (unknown : ¬(s.hunk? id).isSome)
    (change : Staging × Verdict → Staging × Verdict) : w.mark id.text change = w := by
  rw [Register.mark, if_neg (mirrors.isSome_hunk? id ▸ unknown)]

theorem setStaging (mirrors : w.Mirrors s) (id : HunkId) (staging : Staging) :
    (w.setStaging id.text staging).Mirrors (s.setStaging id staging).1 := by
  rw [Register.setStaging, Session.setStaging]
  split
  · next known =>
    apply mirrors.mark known (fun h => { h with staging }) (fun _ => rfl)
    · simp [Session.marks]
    · intro other apart
      simp [Session.marks, Marks.get_set_of_ne _ _ apart]
  · next unknown => exact (mirrors.mark_unknown unknown _).symm ▸ mirrors

theorem setVerdict (mirrors : w.Mirrors s) (id : HunkId) (verdict : Verdict) :
    (w.setVerdict id.text verdict).Mirrors (s.setVerdict id verdict).1 := by
  rw [Register.setVerdict, Session.setVerdict]
  split
  · next known =>
    apply mirrors.mark known (fun h => { h with verdict }) (fun _ => rfl)
    · simp [Session.marks]
    · intro other apart
      simp [Session.marks, Marks.get_set_of_ne _ _ apart]
  · next unknown => exact (mirrors.mark_unknown unknown _).symm ▸ mirrors

theorem addComment (mirrors : w.Mirrors s) (c : Comment) :
    (w.addComment c).Mirrors (s.addComment c).1 := by
  rw [Register.addComment, Session.addComment, mirrors.isSome_hunk?]
  split
  · exact { mirrors with comments := congrArg (· ++ [c]) mirrors.comments }
  · exact mirrors

/-- The register does with texts what the session does with identities. -/
theorem step (mirrors : w.Mirrors s) (a : Action) : (w.step a).Mirrors (a.run s).1 := by
  cases a with
  | start label => exact mirrors.start label
  | applyDiff text => exact mirrors.applyDiff (parseDiff text)
  | tryBeginRefresh => exact mirrors.tryBeginRefresh
  | finishRefresh result => exact mirrors.finishRefresh result
  | refresh result => exact mirrors.refresh result
  | stage id | discard id | clearStaging id => exact mirrors.setStaging id _
  | setVerdict id verdict => exact mirrors.setVerdict id verdict
  | clearVerdict id => exact mirrors.setVerdict id _
  | addComment c => exact mirrors.addComment c
  | setFeedback text | setRequest text => exact { mirrors with }
  | render showHelp =>
    have same := Session.map_placeHunks ReviewHunk.marked (fun _ _ => rfl) s.hunks
    exact { mirrors with hunks := mirrors.hunks.trans (same _).symm }

end Mirrors

theorem mirrors_of (actions : List Action) : (of actions).Mirrors (History.of actions).session := by
  apply List.foldl_rel (r := fun (w : Register) (r : History) => w.Mirrors r.session)
  · exact ⟨rfl, fun _ => rfl, rfl, rfl, rfl⟩
  · intro a _ w r mirrors
    exact mirrors.step a

/-! ### Hunks apart -/

/-- Hunks of another file or another line are as before, and so is all that is kept for them. -/
structure LeavesOthers (id : HunkId) (before after : Register) : Prop where
  hunks : after.hunks.filter (·.id ≠ id) = before.hunks.filter (·.id ≠ id)
  marks : ∀ other, other ≠ id → after.marks other.text = before.marks other.text
  comments : ∀ other, other ≠ id → after.commentsFor other.text = before.commentsFor other.text

theorem leavesOthers_refl (id : HunkId) (w : Register) : LeavesOthers id w w :=
  ⟨rfl, fun _ _ => rfl, fun _ _ => rfl⟩

theorem filter_markFirst (id : HunkId) (change : Staging × Verdict → Staging × Verdict)
    (hs : List MarkedHunk) :
    (markFirst id.text change hs).filter (·.id ≠ id) = hs.filter (·.id ≠ id) := by
  unfold markFirst
  induction hs with
  | nil => rfl
  | cons h hs ih =>
    by_cases here : h.id = id
    · simp [List.findIdx_cons, here]
    · have away : (h.id == id) = false := beq_false_of_ne here
      simpa [List.findIdx_cons, here, away] using ih

theorem leavesOthers_mark (w : Register) (id : HunkId)
    (change : Staging × Verdict → Staging × Verdict) : LeavesOthers id w (w.mark id.text change) := by
  unfold mark
  split
  · constructor
    · exact filter_markFirst id change w.hunks
    · intro other apart
      exact Function.update_of_ne (mt HunkId.text_inj.mp apart) _ _
    · exact fun _ _ => rfl
  · exact leavesOthers_refl id w

theorem leavesOthers_addComment (w : Register) (c : Comment) :
    LeavesOthers c.hunk w (w.addComment c) := by
  unfold addComment
  split
  · refine ⟨rfl, fun _ _ => rfl, ?_⟩
    intro other apart
    simp [commentsFor, apart.symm]
  · exact leavesOthers_refl c.hunk w

end Register

def HunkAction.action : HunkAction → Action
  | stage id => .stage id
  | discard id => .discard id
  | clearStaging id => .clearStaging id
  | setVerdict id verdict => .setVerdict id verdict
  | clearVerdict id => .clearVerdict id
  | addComment c => .addComment c

namespace Register

theorem leavesOthers_step (w : Register) (a : HunkAction) :
    LeavesOthers a.hunk w (w.step a.action) := by
  cases a with
  | stage id | discard id | clearStaging id => exact w.leavesOthers_mark id _
  | setVerdict id verdict => exact w.leavesOthers_mark id _
  | clearVerdict id => exact w.leavesOthers_mark id _
  | addComment c => exact w.leavesOthers_addComment c

/-- Under the text of a file and a line stands what was done to the hunks of that file and line. -/
structure TellsOf (w : Register) (log : List Entry) (id : HunkId) : Prop where
  hunk : ∀ h, w.hunk? id.text = some h →
    h.id = id ∧ h.marks = (lastStaging id log, lastVerdict id log)
  marks : w.marks id.text = (lastStaging id log, lastVerdict id log)
  comments : w.commentsFor id.text = addedComments id log

theorem tellsOf_of (actions : List Action) (id : HunkId) :
    (of actions).TellsOf (History.of actions).log id := by
  have mirrors := mirrors_of actions
  have agrees := History.agrees_of actions
  constructor
  · intro h first
    rw [mirrors.hunk?_text, Option.map_eq_some_iff] at first
    obtain ⟨g, found, rfl⟩ := first
    exact ⟨(Session.mem_of_hunk? found).2, (agrees.carries id g found).trans (agrees.marks id)⟩
  · exact (mirrors.marks id).trans (agrees.marks id)
  · exact (mirrors.commentsFor_text id).trans (History.commentsFor_of actions id)

/-- A written identity stands for one file and one line, so hunks share it, in one diff or in two, only if
they are of one file and begin at one line. Reviews can therefore go by texts alone. What is done under a
text leaves all other files and lines as they are, and in every history what is found under a text is what
was done to the hunks of that file and line. -/
theorem texts_tell_apart :
    (∀ (f g : String) (m n : LineNo), HunkId.text ⟨f, m⟩ = HunkId.text ⟨g, n⟩ ↔ f = g ∧ m = n) ∧
    (∀ first second, ∀ h ∈ parseDiff first, ∀ k ∈ parseDiff second,
      h.id.text = k.id.text ↔ h.file = k.file ∧ h.newStart = k.newStart) ∧
    (∀ (w : Register) (a : HunkAction), LeavesOthers a.hunk w (w.step a.action)) ∧
    ∀ actions, (of actions).Mirrors (History.of actions).session ∧
      ∀ id, (of actions).TellsOf (History.of actions).log id := by
  refine ⟨HunkId.text_eq_text_iff, ?_, leavesOthers_step, ?_⟩
  · intro _ _ h _ k _
    exact HunkId.text_eq_text_iff h.file k.file h.newStart k.newStart
  · intro actions
    exact ⟨mirrors_of actions, tellsOf_of actions⟩

def colons : List Action :=
  let diff := "diff --git a/a b/a\n@@ -1 +12 @@\n x\ndiff --git a/a:1 b/a:1\n@@ -1 +2 @@\n x\n"
  [.start "patch", .applyDiff diff, .stage ⟨"a", .clamp 12⟩, .setVerdict ⟨"a:1", .clamp 2⟩ .approved,
    .addComment (.write ⟨1, {}⟩ ⟨⟨"a", .clamp 12⟩, "a", none⟩ "why?" none)]

theorem texts_tell_apart_colons :
    (of colons).hunks.map (·.id.text) = ["a:12", "a:1:2"] ∧
    (of colons).marks "a:12" = (.staged, .pending) ∧
    (of colons).marks "a:1:2" = (.pending, .approved) ∧
    ((of colons).commentsFor "a:12").map (·.text) = ["why?"] ∧
    (of colons).commentsFor "a:1:2" = [] := by
  have first := (texts_tell_apart.2.2.2 colons).2 ⟨"a", .clamp 12⟩
  have second := (texts_tell_apart.2.2.2 colons).2 ⟨"a:1", .clamp 2⟩
  have firstText : HunkId.text ⟨"a", .clamp 12⟩ = "a:12" := by decide +kernel
  have secondText : HunkId.text ⟨"a:1", .clamp 2⟩ = "a:1:2" := by decide +kernel
  rw [← firstText, ← secondText, first.marks, second.marks, first.comments, second.comments]
  decide +kernel

end Register

end HunkReview
