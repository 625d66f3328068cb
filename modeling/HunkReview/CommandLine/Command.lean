import HunkReview.CommandLine.Grammar
import HunkReview.Source.Comparison

/-!
# Commands

The commands and their options, and how they are read from arguments. Without a command the
unstaged changes are reviewed.
-/

namespace HunkReview.CommandLine

structure Subject where
  comparison : Comparison := .unstaged
  contextLines : Option LineNo := none
  deriving DecidableEq, Repr

structure ExportOptions where
  format : Option String := none
  output : Option String := none
  exportDir : Option String := none
  request : Option String := none
  feedback : Option String := none
  deriving DecidableEq, Repr

inductive Command where
  | review (subject : Subject)
  | show (subject : Subject) (noColor : Bool)
  | export (subject : Subject) (options : ExportOptions)
  | config (init : Bool)
  deriving DecidableEq, Repr

structure Invocation where
  verbose : Bool
  command : Option Command
  deriving DecidableEq, Repr

def Invocation.commandOrReview (i : Invocation) : Command :=
  i.command.getD (.review {})

/-! ## Grammars -/

def commonOptions : List Opt :=
  [{ slot := .verbose, long := "verbose", short := some 'v' },
    { slot := .help, long := "help", short := some 'h' }]

def topGrammar : Grammar where
  options := commonOptions ++ [{ slot := .version, long := "version", short := some 'V' }]

/-- Two revisions, the index or a patch; they exclude each other. -/
def subjectGrammar : Grammar where
  options := commonOptions ++
    [{ slot := .staged, long := "staged" },
      { slot := .mergeBase, long := "merge-base" },
      { slot := .input, long := "input", short := some 'i', operand := .path },
      { slot := .context, long := "context", short := some 'U', operand := .number }]
  positions := [.old, .new]
  exclusions := [(.staged, .old), (.staged, .new), (.staged, .input), (.input, .old), (.input, .new)]
  needs := [(.new, .old), (.mergeBase, .new)]

def showGrammar : Grammar :=
  { subjectGrammar with
    options := subjectGrammar.options ++ [{ slot := .noColor, long := "no-color" }] }

def exportGrammar : Grammar :=
  { subjectGrammar with
    options := subjectGrammar.options ++
      [{ slot := .format, long := "format", short := some 'f', operand := .text },
        { slot := .output, long := "output", short := some 'o', operand := .path },
        { slot := .exportDir, long := "export-dir", operand := .path },
        { slot := .request, long := "request", operand := .text },
        { slot := .feedback, long := "feedback", operand := .text }]
    exclusions := subjectGrammar.exclusions ++ [(.exportDir, .format)]
    needs := subjectGrammar.needs ++ [(.output, .format)] }

def configGrammar : Grammar where
  options := commonOptions ++ [{ slot := .init, long := "init" }]

/-! ## Commands from readings -/

namespace Reading

def comparison (r : Reading) : Comparison :=
  match r.value? .input with
  | some path => .patch path
  | none =>
    if r.given .staged then .staged
    else
      match r.value? .old, r.value? .new with
      | some old, some new => if r.given .mergeBase then .mergeBase old new else .commits old new
      | some base, none => .workTree base
      | _, _ => .unstaged

def subject (r : Reading) : Subject where
  comparison := r.comparison
  contextLines := (r.value? .context).bind number?

def exportOptions (r : Reading) : ExportOptions where
  format := r.value? .format
  output := r.value? .output
  exportDir := r.value? .exportDir
  request := r.value? .request
  feedback := r.value? .feedback

end Reading

inductive CommandName where
  | review
  | show
  | export
  | config
  | help
  deriving DecidableEq, Repr

def CommandName.ofText? (text : String) : Option CommandName :=
  match text with
  | "review" => some .review
  | "show" => some .show
  | "export" => some .export
  | "config" => some .config
  | "help" => some .help
  | _ => none

def readHelp : List String → Stop
  | [] => .help
  | [name] => if (CommandName.ofText? name).isSome then .help else .usage .unknownCommand
  | _ => .usage .unknownCommand

def readCommand (verbose : Bool) (args : List String) : CommandName → Except Stop Invocation
  | .review => do
    let r ← subjectGrammar.readAll args
    return ⟨verbose || r.given .verbose, some (.review r.subject)⟩
  | .show => do
    let r ← showGrammar.readAll args
    return ⟨verbose || r.given .verbose, some (.show r.subject (r.given .noColor))⟩
  | .export => do
    let r ← exportGrammar.readAll args
    return ⟨verbose || r.given .verbose, some (.export r.subject r.exportOptions)⟩
  | .config => do
    let r ← configGrammar.readAll args
    return ⟨verbose || r.given .verbose, some (.config (r.given .init))⟩
  | .help => .error (readHelp args)

/-- Read what follows an escape before any command: nothing may. -/
def readEscaped (r : Reading) : List String → Except Stop Invocation
  | [] => .ok ⟨r.given .verbose, none⟩
  | arg :: _ =>
    .error (.usage (if (CommandName.ofText? arg).isSome then .unknownArgument else .unknownCommand))

/-- Read the arguments up to the command's name. -/
def readTop (r : Reading) : List String → Except Stop Invocation
  | [] => .ok ⟨r.given .verbose, none⟩
  | arg :: rest =>
    match CommandName.ofText? arg with
    | some name => readCommand (r.given .verbose) rest name
    | none =>
      match Word.of arg with
      | .escape => readEscaped r rest
      | .long name value => do readTop (← topGrammar.readLong r name value) rest
      | .short letters => do readTop (← topGrammar.readShort r letters) rest
      | .plain => .error (.usage .unknownCommand)

def Invocation.read (args : List String) : Except Stop Invocation :=
  readTop {} args

end HunkReview.CommandLine
