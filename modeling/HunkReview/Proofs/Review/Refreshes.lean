import HunkReview.Review.Session

/-! Fetches one after the other. A refresh keeps all of a review but its hunks, and what it makes of
them depends on what it keeps and on the fetch alone. So only the last fetch counts: a failed one
takes the hunks away, and the next diff brings them back as if it had not failed. -/
namespace HunkReview.Session

def emptied (s : Session) : Session :=
  { s with hunks := [], refreshing := false }

def takeResults (s : Session) (results : List (Except FetchError String)) : Session :=
  results.foldl (fun s result => (s.finishRefresh result).1) s

/-- A refresh keeps all else. -/
theorem emptied_finishRefresh (s : Session) (result : Except FetchError String) :
    (s.finishRefresh result).1.emptied = s.emptied := by
  cases result <;> rfl

/-- A refresh looks at nothing else. -/
theorem finishRefresh_emptied (s : Session) (result : Except FetchError String) :
    s.emptied.finishRefresh result = s.finishRefresh result := by
  cases result <;> rfl

theorem emptied_takeResults (s : Session) (results : List (Except FetchError String)) :
    (s.takeResults results).emptied = s.emptied := by
  induction results generalizing s with
  | nil => rfl
  | cons result results ih => exact (ih _).trans (s.emptied_finishRefresh result)

/-- A failed fetch takes the hunks and the guard and nothing else. Fetches before it, and fetches
before a diff, failed or not, change nothing about what the last one leads to. -/
theorem last_result_counts (s : Session) :
    (∀ e, (s.finishRefresh (.error e)).1 = { s with hunks := [], refreshing := false }) ∧
    ∀ results result, (s.takeResults results).finishRefresh result = s.finishRefresh result := by
  refine ⟨fun _ => rfl, fun results result => ?_⟩
  calc (s.takeResults results).finishRefresh result
      = (s.takeResults results).emptied.finishRefresh result := (finishRefresh_emptied _ result).symm
    _ = s.emptied.finishRefresh result := by rw [emptied_takeResults]
    _ = s.finishRefresh result := s.finishRefresh_emptied result

/-- A staged hunk goes with a failed fetch and comes back staged with the next diff. -/
example :
    let diff := "diff --git a/f b/f\n@@ -1 +1 @@\n-a\n+b\n"
    let staged := ((applyDiff {} (parseDiff diff)).stage ⟨"f", .clamp 1⟩).1
    let failed := staged.takeResults [.error (.notStarted "no git"), .error (.notStarted "no git")]
    failed.hunks = [] ∧ (failed.takeResults [.ok diff]).hunks.map (·.staging) = [.staged] := by
  decide +kernel

end HunkReview.Session
