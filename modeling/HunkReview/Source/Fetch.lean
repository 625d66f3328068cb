import HunkReview.Diff.Line
import HunkReview.Path
import HunkReview.Source.Comparison
import HunkReview.Text.Blank

/-!
# Fetching diffs and old files

A source knows where its diff comes from: a `git` command, a patch file, or standard input.
Standard input can be read only once, so its text is remembered and replayed.
-/

namespace HunkReview

structure Command where
  program : String
  args : List String
  directory : String
  deriving DecidableEq, Repr

inductive Exit where
  | code (n : Int)
  | killed
  deriving DecidableEq, Repr

def Exit.describe : Exit → String
  | code n => "exit " ++ toString n
  | killed => "terminated"

inductive Reply where
  | notStarted (reason : String)
  | ended (exit : Exit) (output errors : String)
  deriving DecidableEq, Repr

inductive FetchError where
  | notStarted (reason : String)
  | failed (command exit errors : String)
  | unreadable (path reason : String)
  | noOldRevision (path : String)
  deriving DecidableEq, Repr

def FetchError.message : FetchError → String
  | notStarted reason => "Failed to run git: " ++ reason
  | failed command exit errors => "git " ++ command ++ " failed (" ++ exit ++ "): " ++ errors
  | unreadable path reason => "Failed to read patch " ++ path ++ ": " ++ reason
  | noOldRevision path => "No prior revision available for " ++ path

def Reply.output (command : String) : Reply → Except FetchError String
  | .notStarted reason => .error (.notStarted reason)
  | .ended (.code 0) output _ => .ok output
  | .ended exit _ errors =>
    .error (.failed command exit.describe (String.ofList (Text.trim errors.toList)))

/-- The means to reach commands, files and standard input. A failed read gives its reason. -/
structure Reader (m : Type → Type) where
  run : Command → m Reply
  fileText : String → m (Except String String)
  inputText : m (Except String String)

/-- The text read from standard input, once there is one. -/
structure InputPatch where
  text? : Option String := none
  deriving DecidableEq, Repr

/-- The remembered text, or else the one now read; a failed read is not remembered. -/
def InputPatch.read {m : Type → Type} [Monad m] (read : m (Except String String)) :
    InputPatch → m (Except FetchError String × InputPatch)
  | ⟨some text⟩ => pure (.ok text, ⟨some text⟩)
  | ⟨none⟩ => do
    match ← read with
    | .ok text => pure (.ok text, ⟨some text⟩)
    | .error reason => pure (.error (.unreadable "-" reason), ⟨none⟩)

structure Source where
  repository : String
  contextLines : LineNo
  comparison : Comparison
  deriving DecidableEq, Repr

namespace Source

def diffCommand (s : Source) : Command where
  program := "git"
  args := ["diff", "--no-color", "-U" ++ s.contextLines.render] ++ s.comparison.revisionArgs
  directory := s.repository

def showCommand (s : Source) (revision path : String) : Command where
  program := "git"
  args := ["show", revision ++ ":" ++ path]
  directory := s.repository

/-- The diff of the comparison. All copies of a source share one `InputPatch`. -/
def fetchDiff {m : Type → Type} [Monad m] (reader : Reader m) (s : Source) (input : InputPatch) :
    m (Except FetchError String × InputPatch) :=
  match s.comparison with
  | .patch path =>
    if Path.components path = ["-"] then input.read reader.inputText
    else do
      match ← reader.fileText path with
      | .ok text => pure (.ok text, input)
      | .error reason => pure (.error (.unreadable path reason), input)
  | _ => do
    let reply ← reader.run s.diffCommand
    pure (reply.output "diff", input)

def oldFileCommand (s : Source) (path : String) : Except FetchError Command :=
  match s.comparison.oldRevision? with
  | none => .error (.noOldRevision path)
  | some revision => .ok (s.showCommand revision path)

def fetchOldFile {m : Type → Type} [Monad m] (run : Command → m Reply) (s : Source)
    (path : String) : m (Except FetchError String) :=
  match s.oldFileCommand path with
  | .error e => pure (.error e)
  | .ok command => do
    let reply ← run command
    pure (reply.output "show")

end Source

end HunkReview
