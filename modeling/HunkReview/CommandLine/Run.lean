import HunkReview.CommandLine.Command
import HunkReview.Desk.Loop
import HunkReview.Source.Repository
import HunkReview.Stream.Ansi

/-!
# Running commands

What each command does with the means of its host. A command prints a text, or opens a desk, or
fails.
-/

namespace HunkReview.CommandLine

def programName : String := "revdiff"

def programVersion : String := "1.0.0"

/-- The means a command runs with. A failed write gives its reason. -/
structure Host (m : Type → Type) extends Reader m where
  home : String
  directory : String
  /-- Whether output goes to a terminal. -/
  isTerminal : Bool
  exists? : String → m Bool
  makeDirectories : String → m (Except String Unit)
  writeFile : String → String → m (Except String Unit)
  now : m Instant

inductive RunError where
  | settings (error : SettingsError)
  | repository (error : RepositoryError)
  | notice (notice : Notice)
  | unknownFormat
  | notWritten (path : String)
  deriving DecidableEq, Repr

def RunError.message : RunError → String
  | settings error => error.message
  | repository .notFound => "Not in a git repository"
  | repository .noWorkTree => "Repository has no working directory"
  | notice n => n.message
  | unknownFormat => "Invalid format. Use: markdown (md) or json"
  | notWritten path => "Failed to write to " ++ path

inductive Done where
  | printed (text : String)
  | opened (loop : Loop)

namespace Host

variable {m : Type → Type} [Monad m]

def writeText (host : Host m) : String → String → m (Except String Unit) :=
  writeWithDirectories host.makeDirectories host.writeFile

def settingsPath (host : Host m) : String :=
  Path.join (Path.join host.home ("." ++ programName)) "config.toml"

def loadSettings (host : Host m) : ExceptT RunError m Settings := do
  let path := host.settingsPath
  let content ← if ← host.exists? path then some <$> host.fileText path else pure none
  match Settings.load path content with
  | .ok settings => return settings
  | .error e => throw (.settings e)

/-- The source of a subject. A patch can be reviewed outside a repository too. -/
def source (host : Host m) (subject : Subject) (settings : Settings) :
    ExceptT RunError m Source := do
  match ← (Repository.rootOf host.exists? host.directory : m _) with
  | .ok root => return ⟨root, settings.contextLines, subject.comparison⟩
  | .error e =>
    if subject.comparison.isPatch then
      return ⟨host.directory, settings.contextLines, subject.comparison⟩
    else throw (.repository e)

/-- A new session on a source. -/
def sessionOn (source : Source) : Session :=
  (({} : Session).start source.comparison.label).1

def loadSession (host : Host m) (source : Source) : ExceptT RunError m Session := do
  let fetch : m (Except FetchError String) := do
    pure (← source.fetchDiff host.toReader {}).1
  let (session, notice) ← (sessionOn source).refresh fetch
  if notice.applied then return session else throw (.notice notice)

def review (host : Host m) (settings : Settings) (subject : Subject) :
    ExceptT RunError m Done := do
  let settings := settings.override subject.contextLines none
  let source ← host.source subject settings
  return .opened (.opened (.start (sessionOn source) source settings))

def showOnce (host : Host m) (settings : Settings) (subject : Subject) (noColor : Bool) :
    ExceptT RunError m Done := do
  let source ← host.source subject (settings.override subject.contextLines none)
  let session ← host.loadSession source
  return .printed ((session.render false).2.print (!noColor && host.isTerminal))

def exportBoth (host : Host m) (settings : Settings) (source : Source) (session : Session) :
    ExceptT RunError m Done := do
  let (report, document) := settings.exportPaths source.repository
  let now ← host.now
  let notice ← (session.writeExports host.writeText report document now : m _)
  if notice.applied then return .printed (notice.message ++ "\n") else throw (.notice notice)

def exportOne (host : Host m) (session : Session) (format : String) (output : Option String) :
    ExceptT RunError m Done := do
  match ExportFormat.ofName? format with
  | none => throw .unknownFormat
  | some format =>
    let content := session.exportAs (← host.now) format
    match output with
    | none => return .printed content
    | some path =>
      match ← host.writeText path content with
      | .error _ => throw (.notWritten path)
      | .ok () => return .printed ("Exported to " ++ path ++ "\n")

def exportReview (host : Host m) (settings : Settings) (subject : Subject)
    (options : ExportOptions) : ExceptT RunError m Done := do
  let settings := settings.override subject.contextLines options.exportDir
  let source ← host.source subject settings
  let session ← host.loadSession source
  let session := match options.request with
    | some text => (session.setRequest text).1
    | none => session
  let session := match options.feedback with
    | some text => (session.setFeedback text).1
    | none => session
  match options.format with
  | none => host.exportBoth settings source session
  | some format => host.exportOne session format options.output

def config (host : Host m) (settings : Settings) (init : Bool) : ExceptT RunError m Done := do
  let path := host.settingsPath
  if init then
    match ← (Settings.writeDefault host.makeDirectories host.writeFile path : m _) with
    | .error e => throw (.settings e)
    | .ok () => return .printed ("Wrote default configuration to " ++ path ++ "\n")
  else return .printed ("# " ++ path ++ "\n" ++ settings.toToml)

def perform (host : Host m) (command : Command) : ExceptT RunError m Done := do
  let settings ← host.loadSettings
  match command with
  | .review subject => host.review settings subject
  | .show subject noColor => host.showOnce settings subject noColor
  | .export subject options => host.exportReview settings subject options
  | .config init => host.config settings init

end Host

def UsageError.message : UsageError → String
  | missingValue => "a value is required"
  | badValue => "invalid value"
  | unwantedValue => "unexpected value"
  | repeated => "an argument cannot be used multiple times"
  | unknownArgument => "unexpected argument"
  | unknownCommand => "unrecognized subcommand"
  | excluded => "arguments cannot be used together"
  | required => "a required argument was not provided"

def usageText : String :=
  "Review a git diff hunk by hunk and export the review\n\n" ++
    "Usage: " ++ programName ++ " [OPTIONS] [COMMAND]\n\n" ++
    "Commands: review, show, export, config, help\n"

inductive Ending where
  | done (result : Done)
  | failed (error : RunError)
  | misused (error : UsageError)

def program {m : Type → Type} [Monad m] (host : Host m) (args : List String) : m Ending :=
  match Invocation.read args with
  | .error .help => pure (.done (.printed usageText))
  | .error .version => pure (.done (.printed (programName ++ " " ++ programVersion ++ "\n")))
  | .error (.usage e) => pure (.misused e)
  | .ok invocation => do
    match ← (host.perform invocation.commandOrReview).run with
    | .ok result => pure (.done result)
    | .error e => pure (.failed e)

/-- Exit codes: 0 when all is done, 1 after a failure, 2 when the arguments are at fault. -/
def Ending.exitCode : Ending → Nat
  | done _ => 0
  | failed _ => 1
  | misused _ => 2

end HunkReview.CommandLine
