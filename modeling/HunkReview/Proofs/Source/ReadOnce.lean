import HunkReview.Source.Fetch

/-! Standard input through any number of copies of a source. The copies share what they remember. Until a
read succeeds every read is tried and its failure is told; the first text that is read is what all reads
give from then on, and none of them asks its reader again. -/
namespace HunkReview

def Source.ReadsInput (s : Source) : Prop :=
  ∃ path, s.comparison = .patch path ∧ Path.components path = ["-"]

theorem Source.fetchDiff_input {m : Type → Type} [Monad m] {s : Source} (reads : s.ReadsInput)
    (reader : Reader m) (input : InputPatch) :
    s.fetchDiff reader input = input.read reader.inputText := by
  obtain ⟨path, patch, dash⟩ := reads
  rw [fetchDiff, patch]
  exact if_pos dash

variable {W : Type}

/-- A read through one of the copies, with a reader that may look at the world and change it. -/
structure InputRead (W : Type) where
  copy : Source
  isInput : copy.ReadsInput
  reader : Reader (StateM W)

namespace InputRead

def call (r : InputRead W) : StateM W (Except String String) :=
  r.reader.inputText

def fetch (r : InputRead W) (input : InputPatch) :
    StateM W (Except FetchError String × InputPatch) :=
  r.copy.fetchDiff r.reader input

def callAll : List (InputRead W) → StateM W (List (Except String String))
  | [] => pure []
  | r :: rs => do
    let answer ← r.call
    let answers ← callAll rs
    pure (answer :: answers)

def fetchAll : List (InputRead W) → InputPatch →
    StateM W (List (Except FetchError String) × InputPatch)
  | [], input => pure ([], input)
  | r :: rs, input => do
    let (answer, input) ← r.fetch input
    let (answers, input) ← fetchAll rs input
    pure (answer :: answers, input)

end InputRead

def FetchError.ofInput (reason : String) : FetchError :=
  .unreadable "-" reason

open InputRead in
/-- How reads go, from a world in which nothing has been read: the answers, what is remembered, and the
world after them. -/
inductive ReadOnce (world : W) :
    List (InputRead W) → List (Except FetchError String) → InputPatch → W → Prop
  /-- All readers are called and fail. -/
  | never (reasons : List String) {reads : List (InputRead W)} {after : W}
    (called : (callAll reads).run world = (reasons.map .error, after)) :
    ReadOnce world reads (reasons.map fun reason => .error (.ofInput reason)) {} after
  /-- Readers are called up to the first that succeeds, and its text is given to all that follow. -/
  | once (failed later : List (InputRead W)) (reasons : List String) {first : InputRead W}
    {text : String} {after : W}
    (called : (callAll (failed ++ [first])).run world = (reasons.map .error ++ [.ok text], after)) :
    ReadOnce world (failed ++ first :: later)
      ((reasons.map fun reason => .error (.ofInput reason)) ++ .ok text :: later.map fun _ => .ok text)
      ⟨some text⟩ after

namespace InputRead

/-- What is remembered is given without a look at the world. -/
theorem fetch_remembered (r : InputRead W) (text : String) :
    r.fetch ⟨some text⟩ = pure (.ok text, ⟨some text⟩) := by
  rw [fetch, Source.fetchDiff_input r.isInput]
  rfl

theorem fetch_failed {r : InputRead W} {world after : W} {reason : String}
    (failed : r.call.run world = (.error reason, after)) :
    (r.fetch {}).run world = ((.error (.ofInput reason), {}), after) := by
  rw [fetch, Source.fetchDiff_input r.isInput, InputPatch.read]
  change (r.call >>= _).run world = _
  rw [StateT.run_bind, failed]
  rfl

theorem fetch_succeeded {r : InputRead W} {world after : W} {text : String}
    (succeeded : r.call.run world = (.ok text, after)) :
    (r.fetch {}).run world = ((.ok text, ⟨some text⟩), after) := by
  rw [fetch, Source.fetchDiff_input r.isInput, InputPatch.read]
  change (r.call >>= _).run world = _
  rw [StateT.run_bind, succeeded]
  rfl

/-- What is remembered after a read is what the read gave. -/
theorem answer_of_remembered {r : InputRead W} {input kept : InputPatch} {world after : W}
    {answer : Except FetchError String} (read : (r.fetch input).run world = ((answer, kept), after))
    {text : String} (remembered : kept.text? = some text) : answer = .ok text := by
  obtain ⟨_ | before⟩ := input
  · rcases called : r.call.run world with ⟨reason | given, next⟩
    · cases (fetch_failed called).symm.trans read
      cases remembered
    · cases (fetch_succeeded called).symm.trans read
      cases remembered
      rfl
  · cases (congrArg (·.run world) (r.fetch_remembered before)).symm.trans read
    cases remembered
    rfl

theorem fetchAll_remembered (reads : List (InputRead W)) (text : String) :
    fetchAll reads ⟨some text⟩ = pure (reads.map fun _ => .ok text, ⟨some text⟩) := by
  induction reads with
  | nil => rfl
  | cons r rs ih =>
    rw [fetchAll, fetch_remembered]
    simp only [pure_bind, ih]
    rfl

theorem run_callAll_cons {r : InputRead W} {rs : List (InputRead W)} {world after last : W}
    {answer : Except String String} {answers : List (Except String String)}
    (first : r.call.run world = (answer, after))
    (rest : (callAll rs).run after = (answers, last)) :
    (callAll (r :: rs)).run world = (answer :: answers, last) := by
  rw [callAll, StateT.run_bind, first]
  change (callAll rs >>= _).run after = _
  rw [StateT.run_bind, rest]
  rfl

theorem run_fetchAll_cons {r : InputRead W} {rs : List (InputRead W)} {world after last : W}
    {input between final : InputPatch} {answer : Except FetchError String}
    {answers : List (Except FetchError String)}
    (first : (r.fetch input).run world = ((answer, between), after))
    (rest : (fetchAll rs between).run after = ((answers, final), last)) :
    (fetchAll (r :: rs) input).run world = ((answer :: answers, final), last) := by
  rw [fetchAll, StateT.run_bind, first]
  change (fetchAll rs between >>= _).run after = _
  rw [StateT.run_bind, rest]
  rfl

theorem run_fetchAll_concat {reads : List (InputRead W)} {r : InputRead W} {world after last : W}
    {input between final : InputPatch} {answers : List (Except FetchError String)}
    {answer : Except FetchError String}
    (before : (fetchAll reads input).run world = ((answers, between), after))
    (read : (r.fetch between).run after = ((answer, final), last)) :
    (fetchAll (reads ++ [r]) input).run world = ((answers ++ [answer], final), last) := by
  induction reads generalizing input world answers with
  | nil =>
    cases before
    exact run_fetchAll_cons read rfl
  | cons first reads ih =>
    rcases here : (first.fetch input).run world with ⟨⟨given, kept⟩, next⟩
    rcases rest : (fetchAll reads kept).run next with ⟨⟨others, stored⟩, later⟩
    cases (run_fetchAll_cons here rest).symm.trans before
    exact run_fetchAll_cons here (ih rest)

theorem readOnce_fetchAll (reads : List (InputRead W)) (world : W) :
    ∃ answers input after, (fetchAll reads {}).run world = ((answers, input), after) ∧
      ReadOnce world reads answers input after := by
  induction reads generalizing world with
  | nil => exact ⟨[], {}, world, rfl, .never [] rfl⟩
  | cons r rs ih =>
    rcases called : r.call.run world with ⟨_ | text, next⟩
    case error reason =>
      obtain ⟨answers, input, after, rest, once⟩ := ih next
      refine ⟨_, _, _, run_fetchAll_cons (fetch_failed called) rest, ?_⟩
      cases once with
      | never reasons failed => exact .never (reason :: reasons) (run_callAll_cons called failed)
      | once failed later reasons before =>
        exact .once (r :: failed) later (reason :: reasons) (run_callAll_cons called before)
    case ok =>
      have rest := congrArg (·.run next) (fetchAll_remembered rs text)
      exact ⟨_, _, _, run_fetchAll_cons (fetch_succeeded called) rest,
        .once [] rs [] (run_callAll_cons called rfl)⟩

end InputRead

end HunkReview
