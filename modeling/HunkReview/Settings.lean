import HunkReview.Diff.Line
import HunkReview.Path
import HunkReview.Toml.Reader
import HunkReview.Toml.Writer

/-!
# Settings

The reviewer's settings, their TOML form, and the paths that exports go to. Unknown keys of a
settings file are passed over; a key with a value of the wrong kind spoils the file.
-/

namespace HunkReview

structure Settings where
  contextLines : LineNo := .clamp 3
  exportDir : Option String := none
  reportFile : String := "review-report.md"
  sessionFile : String := "review-session.json"
  watch : Bool := true
  showHelp : Bool := true
  deriving DecidableEq, Repr

inductive SettingsError where
  | unreadable (path : String)
  | invalid (path : String)
  | directoryNotMade (path : String)
  | notWritten (path : String)
  deriving DecidableEq, Repr

def SettingsError.message : SettingsError → String
  | unreadable path => "Failed to read config file: " ++ path
  | invalid path => "Invalid config file: " ++ path
  | directoryNotMade path => "Failed to create config directory: " ++ path
  | notWritten path => "Failed to write config file: " ++ path

namespace Settings

def lineNo? : Toml.Value → Option LineNo
  | .integer (.ofNat n) => LineNo.ofNat? n
  | _ => none

def text? : Toml.Value → Option String
  | .text s => some s
  | _ => none

def boolean? : Toml.Value → Option Bool
  | .boolean b => some b
  | _ => none

def entry {α : Type} (table : List (String × Toml.Value)) (key : String) (missing : α)
    (read : Toml.Value → Option α) : Option α :=
  match table.lookup key with
  | none => some missing
  | some v => read v

def ofTable? (table : List (String × Toml.Value)) : Option Settings := do
  let standard : Settings := {}
  return {
    contextLines := ← entry table "context_lines" standard.contextLines lineNo?
    exportDir := ← entry table "export_dir" standard.exportDir fun v => (text? v).map some
    reportFile := ← entry table "report_file" standard.reportFile text?
    sessionFile := ← entry table "session_file" standard.sessionFile text?
    watch := ← entry table "watch" standard.watch boolean?
    showHelp := ← entry table "show_help" standard.showHelp boolean? }

def ofToml? (text : String) : Option Settings := do
  ofTable? (← Toml.parse? text)

def line (key value : String) : String :=
  key ++ " = " ++ value ++ "\n"

def flag (b : Bool) : String :=
  if b then "true" else "false"

def toToml (s : Settings) : String :=
  line "context_lines" s.contextLines.render ++
    (match s.exportDir with
      | some dir => line "export_dir" (Toml.quote dir)
      | none => "") ++
    line "report_file" (Toml.quote s.reportFile) ++ line "session_file" (Toml.quote s.sessionFile) ++
    line "watch" (flag s.watch) ++ line "show_help" (flag s.showHelp)

/-- Settings given on the command line come before those of the file. -/
def override (s : Settings) (contextLines : Option LineNo) (exportDir : Option String) : Settings :=
  { s with
    contextLines := contextLines.getD s.contextLines
    exportDir := exportDir.or s.exportDir }

/-- The directory that exports of a repository go to. -/
def exportDirFor (s : Settings) (repository : String) : String :=
  Path.join repository (s.exportDir.getD ".review")

def exportPaths (s : Settings) (repository : String) : String × String :=
  let dir := s.exportDirFor repository
  (Path.join dir s.reportFile, Path.join dir s.sessionFile)

/-- The settings of a file's content; a file that is not there leaves the standard ones. -/
def load (path : String) : Option (Except String String) → Except SettingsError Settings
  | none => .ok {}
  | some (.error _) => .error (.unreadable path)
  | some (.ok text) =>
    match ofToml? text with
    | some s => .ok s
    | none => .error (.invalid path)

/-- Write the standard settings to a new or replaced file, with the directories above it. -/
def writeDefault {m : Type → Type} [Monad m] (makeDirectories : String → m (Except String Unit))
    (writeFile : String → String → m (Except String Unit)) (path : String) :
    m (Except SettingsError Unit) := do
  match ← makeDirectories ((Path.parent? path).getD "") with
  | .error _ => pure (.error (.directoryNotMade ((Path.parent? path).getD "")))
  | .ok () =>
    match ← writeFile path (toToml {}) with
    | .error _ => pure (.error (.notWritten path))
    | .ok () => pure (.ok ())

end Settings

end HunkReview
