import HunkReview.Export.Document
import HunkReview.Export.Report
import HunkReview.Path

/-!
# Writing exports

The formats by name, and writing both documents of a review.
-/

namespace HunkReview

inductive ExportFormat where
  | markdown
  | json
  deriving DecidableEq, Repr

/-- The lower-case letter, for the characters whose lower case is an ASCII letter: the capital
ASCII letters and the Kelvin sign. -/
def lowerAscii (c : Char) : Char :=
  if c = '\u212A' then 'k' else c.toLower

/-- Formats are named without regard to case. -/
def ExportFormat.ofName? (name : String) : Option ExportFormat :=
  let name := String.ofList (name.toList.map lowerAscii)
  if name = "md" ∨ name = "markdown" then some .markdown
  else if name = "json" then some .json
  else none

def Session.exportAs (s : Session) (now : Instant) : ExportFormat → String
  | .markdown => s.exportReport now
  | .json => s.exportDocument now

def writeWithDirectories {m : Type → Type} [Monad m]
    (makeDirectories : String → m (Except String Unit))
    (writeFile : String → String → m (Except String Unit)) (path text : String) :
    m (Except String Unit) := do
  match ← makeDirectories ((Path.parent? path).getD "") with
  | .error reason => pure (.error reason)
  | .ok () => writeFile path text

/-- Write the report and then the document. The second is not written when the first fails; a
failed write gives its reason. -/
def Session.writeExports {m : Type → Type} [Monad m]
    (write : String → String → m (Except String Unit)) (s : Session)
    (reportPath documentPath : String) (now : Instant) : m Notice := do
  match ← write reportPath (s.exportReport now) with
  | .error reason => pure (.exportFailed reportPath reason)
  | .ok () =>
    match ← write documentPath (s.exportDocument now) with
    | .error reason => pure (.exportFailed documentPath reason)
    | .ok () => pure (.exported reportPath)

end HunkReview
