import HunkReview.Proofs.Desk.Guard

/-! Fetches in turn. Keys, changed files, fetches that come back and events that are taken may follow
each other in any order; the log of a run still tells of one fetch after the other, each started, back
and applied before the next one starts, and the refresh guard is set while one is outstanding. -/
namespace HunkReview

abbrev Fetched := Except FetchError String

def Event.fetched? : Event → Option Fetched
  | .diffFetched result => some result
  | .filesChanged => none

namespace Loop

def takeNext (l : Loop) : Loop :=
  match l.queue with
  | [] => l
  | e :: rest => { l with queue := rest }.take e

/-- What happens at a time. The queue is drained one event after the other, and others may come in
between. -/
inductive Moment where
  | press (stamp : Stamp) (key : KeyPress) (world : World)
  | fetchEnds (result : Fetched)
  | filesChange
  | takeNext
  | setViewport (rows : Nat)
  | draw (width height : Nat)

inductive FetchEntry where
  | started
  | returned (result : Fetched)
  | applied (result : Fetched)

namespace FetchEntry

def isStarted : FetchEntry → Bool
  | started => true
  | _ => false

def isReturned : FetchEntry → Bool
  | returned _ => true
  | _ => false

def isApplied : FetchEntry → Bool
  | applied _ => true
  | _ => false

end FetchEntry

namespace Moment

def run (l : Loop) : Moment → Loop
  | press stamp key world => l.step (.press stamp key world)
  | fetchEnds result => l.step (.fetchEnds result)
  | filesChange => l.step .filesChange
  | takeNext => l.takeNext
  | setViewport rows => l.step (.setViewport rows)
  | draw width height => l.step (.draw width height)

def entries (l : Loop) : Moment → List FetchEntry
  | press stamp key _ => if (l.desk.press stamp key).2 = some .fetchDiff then [.started] else []
  | fetchEnds result => if l.fetching = 0 then [] else [.returned result]
  | takeNext =>
    match l.queue with
    | [] => []
    | .diffFetched result :: _ => [.applied result]
    | .filesChanged :: _ => if l.desk.beginRefresh.2 then [.started] else []
  | filesChange | setViewport _ | draw _ _ => []

end Moment

structure Logged where
  loop : Loop
  log : List FetchEntry := []

namespace Logged

def step (r : Logged) (m : Moment) : Logged :=
  ⟨m.run r.loop, r.log ++ m.entries r.loop⟩

def of (session : Session) (source : Source) (settings : Settings) (moments : List Moment) : Logged :=
  moments.foldl step { loop := { desk := .start session source settings } }

end Logged

def waiting (l : Loop) : List Fetched :=
  l.queue.filterMap Event.fetched?

/-! ### Draining event by event -/

theorem take_diffFetched (result : Fetched) (l : Loop) :
    l.take (.diffFetched result) = { l with desk := l.desk.takeDiff result } :=
  rfl

theorem take_filesChanged (l : Loop) :
    l.take .filesChanged =
      { l with
        desk := l.desk.beginRefresh.1
        fetching := l.fetching + if l.desk.beginRefresh.2 then 1 else 0 } := by
  unfold take
  rcases l.desk.beginRefresh with ⟨d, _ | _⟩ <;> rfl

theorem step_press (stamp : Stamp) (key : KeyPress) (world : World) (l : Loop) :
    l.step (.press stamp key world) =
      { l with
        desk := (l.desk.press stamp key).1.fulfil world (l.desk.press stamp key).2
        fetching := l.fetching + if (l.desk.press stamp key).2 = some .fetchDiff then 1 else 0 } := by
  rcases pressed : l.desk.press stamp key with ⟨d, request⟩
  simp only [step, press, pressed]
  split
  · next same => cases same; rfl
  · next other same =>
    cases same
    rw [if_neg other]
    rfl

/-- Events are taken without regard to those that wait. -/
theorem take_queue (l : Loop) (queue : List Event) (e : Event) :
    { l with queue }.take e = { l.take e with queue } := by
  cases e with
  | diffFetched result => rfl
  | filesChanged => rw [take_filesChanged, take_filesChanged]

theorem queue_take (l : Loop) (e : Event) : (l.take e).queue = l.queue := by
  rw [show l = { l with queue := l.queue } from rfl, take_queue]

/-- Draining is taking the next event as often as events wait. -/
theorem foldl_takeNext (l : Loop) (queue : List Event) :
    (List.replicate queue.length Moment.takeNext).foldl Moment.run { l with queue } =
      { l with queue }.drain := by
  induction queue generalizing l with
  | nil => rfl
  | cons e rest ih =>
    have first : Moment.run { l with queue := e :: rest } .takeNext =
        { l.take e with queue := rest } :=
      l.take_queue rest e
    have last : ({ l with queue := e :: rest } : Loop).drain =
        ({ l.take e with queue := rest } : Loop).drain := by
      rw [drain, List.foldl_cons, drain]
      congr 1
      exact l.take_queue [] e
    rw [List.length_cons, List.replicate_succ, List.foldl_cons, first, ih, last]

theorem exists_moments_of_step (l : Loop) (x : Step) :
    ∃ moments : List Moment, moments.foldl Moment.run l = l.step x := by
  cases x with
  | press stamp key world => exact ⟨[.press stamp key world], rfl⟩
  | fetchEnds result => exact ⟨[.fetchEnds result], rfl⟩
  | filesChange => exact ⟨[.filesChange], rfl⟩
  | drain => exact ⟨_, l.foldl_takeNext l.queue⟩
  | setViewport rows => exact ⟨[.setViewport rows], rfl⟩
  | draw width height => exact ⟨[.draw width height], rfl⟩

theorem exists_moments_of_steps (l : Loop) (steps : List Step) :
    ∃ moments : List Moment, moments.foldl Moment.run l = steps.foldl step l := by
  induction steps generalizing l with
  | nil => exact ⟨[], rfl⟩
  | cons x steps ih =>
    obtain ⟨first, here⟩ := l.exists_moments_of_step x
    obtain ⟨later, below⟩ := ih (l.step x)
    exact ⟨first ++ later, by rw [List.foldl_append, here, below, List.foldl_cons]⟩

theorem Logged.loop_foldl (r : Logged) (moments : List Moment) :
    (moments.foldl step r).loop = moments.foldl Moment.run r.loop := by
  induction moments generalizing r with
  | nil => rfl
  | cons m moments ih => exact ih (r.step m)

/-- Where the log says that a result is applied, the refresh is finished with it and shown. -/
theorem session_of_applied {l : Loop} {m : Moment} {result : Fetched}
    (applied : .applied result ∈ m.entries l) :
    (m.run l).desk.session =
      ((l.desk.session.finishRefresh result).1.render l.desk.settings.showHelp).1 := by
  cases m with
  | takeNext =>
    rcases queue : l.queue with _ | ⟨_ | _, rest⟩
    · simp [Moment.entries, queue] at applied
    · simp only [Moment.entries, queue, List.mem_singleton, FetchEntry.applied.injEq] at applied
      subst applied
      simp only [Moment.run, takeNext, queue]
      exact Desk.session_commit _ _
    · simp [Moment.entries, queue] at applied
  | press | fetchEnds => simp [Moment.entries] at applied
  | filesChange | setViewport | draw => cases applied

/-! ### One fetch after the other -/

/-- A fetch that has been started and not yet applied. -/
inductive Outstanding where
  | nothing
  | running
  | waiting (result : Fetched)

namespace Outstanding

def entries : Outstanding → List FetchEntry
  | nothing => []
  | running => [.started]
  | waiting result => [.started, .returned result]

def isBusy : Outstanding → Bool
  | nothing => false
  | running | waiting _ => true

def fetching : Outstanding → Nat
  | running => 1
  | nothing | waiting _ => 0

def results : Outstanding → List Fetched
  | waiting result => [result]
  | nothing | running => []

/-- What may follow, with the entries that it adds to the log. -/
inductive Next : Outstanding → List FetchEntry → Outstanding → Prop
  | stay (o : Outstanding) : Next o [] o
  | start : Next nothing [.started] running
  | comeBack (result : Fetched) : Next running [.returned result] (waiting result)
  | apply (result : Fetched) : Next (waiting result) [.applied result] nothing

end Outstanding

/-- The guard, the fetches under way and the queue are those of one outstanding fetch, or of none. -/
structure Stands (l : Loop) (o : Outstanding) : Prop where
  guard : l.desk.session.refreshing = o.isBusy
  fetching : l.fetching = o.fetching
  waiting : l.waiting = o.results

def turnOf (result : Fetched) : List FetchEntry :=
  [.started, .returned result, .applied result]

/-- The log tells of fetches one after the other, of which only the last may be outstanding. -/
def Logged.InTurn (r : Logged) : Prop :=
  ∃ done : List Fetched, ∃ o : Outstanding, r.log = done.flatMap turnOf ++ o.entries ∧ r.loop.Stands o

/-- Beginning a refresh starts a fetch if none is outstanding, and nothing otherwise. -/
theorem Stands.next_take_filesChanged {l : Loop} {o : Outstanding} (stands : l.Stands o) :
    ∃ p : Outstanding, o.Next (if l.desk.beginRefresh.2 then [.started] else []) p ∧
      (l.take .filesChanged).Stands p := by
  obtain ⟨taken, free⟩ := l.desk.refreshing_beginRefresh
  rw [take_filesChanged, free, stands.guard]
  cases o with
  | nothing => exact ⟨.running, .start, taken, by rw [stands.fetching]; rfl, stands.waiting⟩
  | running => exact ⟨.running, .stay _, taken, stands.fetching, stands.waiting⟩
  | waiting result => exact ⟨.waiting result, .stay _, taken, stands.fetching, stands.waiting⟩

/-- A key starts a fetch if it asks for one, which it does with the guard free only. -/
theorem Stands.next_press {l : Loop} {o : Outstanding} (stands : l.Stands o) (stamp : Stamp)
    (key : KeyPress) (world : World) :
    ∃ p : Outstanding, o.Next (Moment.entries l (.press stamp key world)) p ∧
      (l.step (.press stamp key world)).Stands p := by
  obtain ⟨fetch, other⟩ := l.desk.guards_press stamp key
  rw [step_press, Moment.entries]
  by_cases asks : (l.desk.press stamp key).2 = some .fetchDiff
  · obtain ⟨free, taken⟩ := fetch asks
    rw [stands.guard] at free
    rw [if_pos asks, if_pos asks]
    cases o with
    | nothing =>
      refine ⟨.running, .start, ?_, by rw [stands.fetching]; rfl, stands.waiting⟩
      rw [Desk.session_fulfil]
      exact taken
    | running => cases free
    | waiting result => cases free
  · rw [if_neg asks, if_neg asks]
    refine ⟨o, .stay o, ?_, stands.fetching, stands.waiting⟩
    rw [Desk.session_fulfil]
    exact (other asks).trans stands.guard

theorem waiting_enqueue (e : Event) (l : Loop) :
    (l.enqueue e).waiting = l.waiting ++ e.fetched?.toList := by
  unfold waiting enqueue
  rw [List.filterMap_append]
  cases e <;> rfl

/-- What comes back is the fetch that runs, if one does. -/
theorem Stands.next_fetchEnds {l : Loop} {o : Outstanding} (stands : l.Stands o) (result : Fetched) :
    ∃ p : Outstanding, o.Next (Moment.entries l (.fetchEnds result)) p ∧
      (l.fetchEnds result).Stands p := by
  by_cases none : l.fetching = 0
  · have same : l.fetchEnds result = l := by simp [fetchEnds, none]
    rw [same, Moment.entries, if_pos none]
    exact ⟨o, .stay o, stands⟩
  · rw [Moment.entries, if_neg none]
    cases o with
    | nothing => exact absurd stands.fetching none
    | waiting earlier => exact absurd stands.fetching none
    | running =>
      have one : l.fetching = 1 := stands.fetching
      refine ⟨.waiting result, .comeBack result, ?_⟩
      simp only [fetchEnds, one]
      refine ⟨stands.guard, rfl, ?_⟩
      rw [waiting_enqueue]
      exact congrArg (· ++ [result]) stands.waiting

theorem Stands.next_filesChange {l : Loop} {o : Outstanding} (stands : l.Stands o) :
    l.filesChange.Stands o := by
  refine ⟨stands.guard, stands.fetching, ?_⟩
  rw [filesChange, waiting_enqueue]
  exact (List.append_nil _).trans stands.waiting

/-- The event that has waited longest is applied, if it is a fetch that is back. -/
theorem Stands.next_takeNext {l : Loop} {o : Outstanding} (stands : l.Stands o) :
    ∃ p : Outstanding, o.Next (Moment.entries l .takeNext) p ∧ l.takeNext.Stands p := by
  obtain ⟨guard, number, results⟩ := stands
  unfold Moment.entries takeNext
  rcases queue : l.queue with _ | ⟨e, rest⟩
  · exact ⟨o, .stay o, guard, number, results⟩
  · rw [Loop.waiting, queue] at results
    cases e with
    | diffFetched result =>
      have back : result :: rest.filterMap Event.fetched? = o.results := results
      cases o with
      | waiting earlier =>
        obtain ⟨rfl, none⟩ := List.cons.inj back
        exact ⟨.nothing, .apply result, Desk.refreshing_takeDiff result l.desk, number, none⟩
      | nothing => cases back
      | running => cases back
    | filesChanged =>
      have later : ({ l with queue := rest } : Loop).Stands o := ⟨guard, number, results⟩
      exact later.next_take_filesChanged

/-- Whatever happens, it is what may follow. -/
theorem Stands.next {l : Loop} {o : Outstanding} (stands : l.Stands o) (m : Moment) :
    ∃ p : Outstanding, o.Next (m.entries l) p ∧ (m.run l).Stands p := by
  cases m with
  | press stamp key world => exact stands.next_press stamp key world
  | fetchEnds result => exact stands.next_fetchEnds result
  | filesChange => exact ⟨o, .stay o, stands.next_filesChange⟩
  | takeNext => exact stands.next_takeNext
  | setViewport rows =>
    refine ⟨o, .stay o, ?_, stands.fetching, stands.waiting⟩
    exact (congrArg Session.refreshing (Desk.session_setViewport rows l.desk)).trans stands.guard
  | draw width height =>
    refine ⟨o, .stay o, ?_, stands.fetching, stands.waiting⟩
    exact (congrArg Session.refreshing (Desk.session_fitScreen width height l.desk)).trans stands.guard

namespace Logged

theorem InTurn.step {r : Logged} (turns : r.InTurn) (m : Moment) : (r.step m).InTurn := by
  obtain ⟨done, o, log, stands⟩ := turns
  obtain ⟨p, next, after⟩ := stands.next m
  unfold InTurn Logged.step
  rw [log]
  generalize m.entries r.loop = entries at next ⊢
  cases next with
  | stay => exact ⟨done, o, List.append_nil _, after⟩
  | start => exact ⟨done, .running, by simp [Outstanding.entries], after⟩
  | comeBack result => exact ⟨done, .waiting result, by simp [Outstanding.entries], after⟩
  | apply result => exact ⟨done ++ [result], .nothing, by simp [Outstanding.entries, turnOf], after⟩

theorem InTurn.foldl {r : Logged} (turns : r.InTurn) (moments : List Moment) :
    (moments.foldl Logged.step r).InTurn := by
  induction moments generalizing r with
  | nil => exact turns
  | cons m moments ih => exact ih (turns.step m)

/-- A desk is opened on a session whose guard is free with nothing outstanding. -/
theorem inTurn_of_start {session : Session} (free : session.refreshing = false) (source : Source)
    (settings : Settings) : (⟨{ desk := .start session source settings }, []⟩ : Logged).InTurn := by
  exact ⟨[], .nothing, rfl, (Desk.refreshing_start session source settings).trans free, rfl, rfl⟩

/-! ### Counting -/

/-- What is said once of every fetch that has been applied is said as often as fetches have. -/
theorem countP_turns (said : FetchEntry → Bool) (once : ∀ result, (turnOf result).countP said = 1)
    (done : List Fetched) : (done.flatMap turnOf).countP said = done.length := by
  induction done with
  | nil => rfl
  | cons result done ih =>
    rw [List.flatMap_cons, List.countP_append, once, ih, List.length_cons, Nat.add_comm]

/-- Of the fetches that have been started all are back but those that run, and of those all are
applied but those that wait. -/
theorem InTurn.balance {r : Logged} (turns : r.InTurn) :
    r.log.countP FetchEntry.isStarted = r.log.countP FetchEntry.isReturned + r.loop.fetching ∧
      r.log.countP FetchEntry.isReturned =
        r.log.countP FetchEntry.isApplied + r.loop.waiting.length := by
  obtain ⟨done, o, log, guard, number, results⟩ := turns
  rw [log, number, results]
  simp only [List.countP_append]
  rw [countP_turns FetchEntry.isStarted fun _ => rfl,
    countP_turns FetchEntry.isReturned fun _ => rfl,
    countP_turns FetchEntry.isApplied fun _ => rfl]
  cases o <;> exact ⟨rfl, rfl⟩

/-- The guard is set for the one fetch that runs or waits, if there is one. -/
theorem InTurn.outstanding {r : Logged} (turns : r.InTurn) :
    r.loop.fetching + r.loop.waiting.length =
      if r.loop.desk.session.refreshing then 1 else 0 := by
  obtain ⟨done, o, -, guard, number, results⟩ := turns
  rw [guard, number, results]
  cases o <;> rfl

/-- Taking the first event leaves the others, and applies its result if it has one. -/
theorem step_takeNext {r : Logged} {e : Event} {rest : List Event} (queue : r.loop.queue = e :: rest) :
    (r.step .takeNext).loop.queue = rest ∧
      (r.step .takeNext).log.countP FetchEntry.isApplied =
        r.log.countP FetchEntry.isApplied + e.fetched?.toList.length := by
  have loop : (r.step .takeNext).loop = { r.loop with queue := rest }.take e := by
    simp only [Logged.step, Moment.run, takeNext, queue]
  refine ⟨by rw [loop, queue_take], ?_⟩
  rw [Logged.step, List.countP_append, Nat.add_left_cancel_iff, Moment.entries, queue]
  cases e with
  | diffFetched result => rfl
  | filesChanged => cases r.loop.desk.beginRefresh.2 <;> rfl

/-- Taking as many events as wait, or more, applies all results that wait, each once. -/
theorem countP_isApplied_takes (r : Logged) {n : Nat} (enough : r.loop.queue.length ≤ n) :
    ((List.replicate n Moment.takeNext).foldl step r).log.countP FetchEntry.isApplied =
      r.log.countP FetchEntry.isApplied + r.loop.waiting.length := by
  induction n generalizing r with
  | zero =>
    have none : r.loop.queue = [] := List.eq_nil_of_length_eq_zero (Nat.le_zero.mp enough)
    rw [Loop.waiting, none]
    rfl
  | succ n ih =>
    rw [List.replicate_succ, List.foldl_cons]
    rcases queue : r.loop.queue with _ | ⟨e, rest⟩
    · have same : r.step .takeNext = r := by
        simp [Logged.step, Moment.run, Moment.entries, takeNext, queue]
      rw [same]
      exact ih r (by rw [queue]; exact Nat.zero_le n)
    · obtain ⟨left, applied⟩ := step_takeNext queue
      rw [queue] at enough
      rw [ih (r.step .takeNext) (by rw [left]; exact Nat.le_of_succ_le_succ enough), applied,
        Loop.waiting, Loop.waiting, left, queue, Nat.add_assoc]
      cases e with
      | diffFetched result => exact congrArg _ (Nat.add_comm 1 _)
      | filesChanged => exact congrArg _ (Nat.zero_add _)

/-- One fetch fewer runs after one has come back, with one event more at most, and none is started. -/
theorem step_fetchEnds (r : Logged) (result : Fetched) :
    (r.step (.fetchEnds result)).loop.fetching = r.loop.fetching - 1 ∧
      (r.step (.fetchEnds result)).loop.queue.length ≤ r.loop.queue.length + 1 ∧
      (r.step (.fetchEnds result)).log.countP FetchEntry.isStarted =
        r.log.countP FetchEntry.isStarted := by
  have loop : (r.step (.fetchEnds result)).loop = r.loop.fetchEnds result := rfl
  rw [loop, Logged.step, List.countP_append, Moment.entries, fetchEnds]
  rcases number : r.loop.fetching with _ | n
  · exact ⟨number, Nat.le_succ _, rfl⟩
  · refine ⟨rfl, ?_, rfl⟩
    simp [enqueue]

/-- When the fetch that runs has come back and all events are taken, what had been started is applied. -/
theorem InTurn.applied_eq_started {r : Logged} (turns : r.InTurn) (result : Fetched) :
    ((Moment.fetchEnds result :: List.replicate (r.loop.queue.length + 1) .takeNext).foldl Logged.step
        r).log.countP FetchEntry.isApplied =
      r.log.countP FetchEntry.isStarted := by
  obtain ⟨number, enough, same⟩ := r.step_fetchEnds result
  have one : r.loop.fetching ≤ 1 := by
    have outstanding := turns.outstanding
    split at outstanding <;> omega
  obtain ⟨started, returned⟩ := (turns.step (.fetchEnds result)).balance
  rw [List.foldl_cons, countP_isApplied_takes _ enough]
  omega

end Logged

/-! ### What asks for a fetch -/

/-- After changed files have been taken the guard is set, by them or by a fetch before. -/
theorem refreshing_take_filesChanged (l : Loop) :
    (l.take .filesChanged).desk.session.refreshing = true := by
  rw [take_filesChanged]
  exact l.desk.refreshing_beginRefresh.1

/-- And so it is after the key that refreshes. -/
theorem refreshing_step_refreshKey {l : Loop} (normal : l.desk.mode = .normal) {k : KeyPress}
    (key : k.key = .char 'r') (stamp : Stamp) (world : World) :
    (l.step (.press stamp k world)).desk.session.refreshing = true := by
  have pressed : l.desk.press stamp k = { l.desk with message := none }.requestRefresh := by
    simp only [Desk.press, normal, Desk.pressNormal, key, Desk.pressChar]
  rw [step_press, Desk.session_fulfil, pressed]
  exact Desk.refreshing_requestRefresh _

/-- Fetches do not overlap. Whatever happens, in any order, the refresh guard is set for the one fetch
that runs or whose result waits, and is free when there is none; and the log tells of one fetch after
the other, each started, back and applied before the next is started, where to apply a result is to
finish the refresh with it and show the session. None is forgotten: when the
fetch that runs comes back and the queue is taken, all fetches started before have been applied; and
whatever asks for a fetch leaves one outstanding. The runs of the desk, which drain the queue at once,
are among these. -/
theorem fetches_in_turn (session : Session) (free : session.refreshing = false) (source : Source)
    (settings : Settings) :
    (∀ moments : List Moment,
      let r := Logged.of session source settings moments
      r.loop.fetching + r.loop.waiting.length =
          (if r.loop.desk.session.refreshing then 1 else 0) ∧
        r.InTurn) ∧
    (∀ (moments : List Moment) (m : Moment) (result : Fetched),
      let r := Logged.of session source settings moments
      .applied result ∈ m.entries r.loop →
        (r.step m).loop.desk.session =
          ((r.loop.desk.session.finishRefresh result).1.render
            r.loop.desk.settings.showHelp).1) ∧
    (∀ (moments : List Moment) (result : Fetched),
      let r := Logged.of session source settings moments
      let later := Moment.fetchEnds result :: List.replicate (r.loop.queue.length + 1) .takeNext
      (Logged.of session source settings (moments ++ later)).log.countP FetchEntry.isApplied =
        r.log.countP FetchEntry.isStarted) ∧
    (∀ moments : List Moment,
      let l := (Logged.of session source settings moments).loop
      (l.take .filesChanged).desk.session.refreshing = true ∧
        ∀ stamp k world, l.desk.mode = .normal → k.key = .char 'r' →
          (l.step (.press stamp k world)).desk.session.refreshing = true) ∧
    ∀ steps : List Step, ∃ moments : List Moment,
      (Logged.of session source settings moments).loop = run session source settings steps := by
  have inTurn (moments : List Moment) : (Logged.of session source settings moments).InTurn :=
    (Logged.inTurn_of_start free source settings).foldl moments
  refine ⟨fun moments => ⟨(inTurn moments).outstanding, inTurn moments⟩,
    fun moments m result applied => session_of_applied applied, fun moments result => ?_,
    fun moments => ?_, fun steps => ?_⟩
  · dsimp only
    rw [← (inTurn moments).applied_eq_started result]
    unfold Logged.of
    rw [List.foldl_append]
  · refine ⟨refreshing_take_filesChanged _, ?_⟩
    exact fun stamp k world normal key => refreshing_step_refreshKey normal key stamp world
  · obtain ⟨moments, same⟩ := exists_moments_of_steps { desk := .start session source settings } steps
    exact ⟨moments, (Logged.loop_foldl _ moments).trans same⟩

theorem fetches_in_turn_threeChanges :
    let moments : List Moment :=
      [.filesChange, .takeNext, .filesChange, .fetchEnds (.ok ""), .takeNext, .filesChange, .takeNext,
        .takeNext]
    let r := Logged.of {} ⟨"/repo", .clamp 3, .unstaged⟩ {} moments
    ({} : Session).refreshing = false ∧
      r.log = [.started, .returned (.ok ""), .applied (.ok ""), .started] ∧
      r.loop.fetching + r.loop.waiting.length = 1 ∧ r.InTurn := by
  intro moments r
  have turns : r.InTurn :=
    ((fetches_in_turn {} rfl ⟨"/repo", .clamp 3, .unstaged⟩ {}).1 moments).2
  have log : r.log = [.started, .returned (.ok ""), .applied (.ok ""), .started] := by
    simp [r, moments, Logged.of, Logged.step, Moment.run, Moment.entries, step, filesChange,
      fetchEnds, takeNext, enqueue, take_filesChanged, take_diffFetched, Desk.refreshing_beginRefresh]
  obtain ⟨started, returned⟩ := turns.balance
  rw [log] at started returned
  have fetching : 2 = 1 + r.loop.fetching := started
  have waiting : 1 = 1 + r.loop.waiting.length := returned
  exact ⟨rfl, log, by omega, turns⟩

end Loop

end HunkReview
