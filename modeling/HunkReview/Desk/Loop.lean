import HunkReview.Desk.Press

/-!
# The loop around a desk

Diffs are fetched while the desk goes on; what comes back waits in a queue, together with the news
that files have changed, until the queue is drained.
-/

namespace HunkReview

inductive Event where
  | diffFetched (result : Except FetchError String)
  | filesChanged

/-- A desk with the number of fetches under way and the events that wait, oldest first. -/
structure Loop where
  desk : Desk
  fetching : Nat := 0
  queue : List Event := []

namespace Loop

/-- Press a key. Fetches are started here; other requests are passed on. -/
def press (stamp : Stamp) (k : KeyPress) (l : Loop) : Loop × Option Request :=
  match l.desk.press stamp k with
  | (desk, some .fetchDiff) => ({ l with desk, fetching := l.fetching + 1 }, none)
  | (desk, request) => ({ l with desk }, request)

def enqueue (e : Event) (l : Loop) : Loop :=
  { l with queue := l.queue ++ [e] }

def fetchEnds (result : Except FetchError String) (l : Loop) : Loop :=
  match l.fetching with
  | 0 => l
  | n + 1 => { l with fetching := n }.enqueue (.diffFetched result)

def filesChange (l : Loop) : Loop :=
  l.enqueue .filesChanged

/-- Take one event. Changed files start a refresh, unless one is under way. -/
def take (l : Loop) : Event → Loop
  | .diffFetched result => { l with desk := l.desk.takeDiff result }
  | .filesChanged =>
    match l.desk.beginRefresh with
    | (desk, true) => { l with desk, fetching := l.fetching + 1 }
    | (desk, false) => { l with desk }

def opened (desk : Desk) : Loop :=
  ({ desk } : Loop).take .filesChanged

def drain (l : Loop) : Loop :=
  l.queue.foldl take { l with queue := [] }

end Loop

end HunkReview
