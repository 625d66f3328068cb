import HunkReview.Diff.Line

/-!
# Reading arguments by a grammar

A grammar names the options and positions of a command, which of them exclude each other and which
need another. Arguments are read from left to right and the first fault ends the reading; what
excludes or needs what is looked at once all are read. A value in an argument of its own is
checked only when the next option or position is taken, or at the end.
-/

namespace HunkReview.CommandLine

inductive Slot where
  | verbose
  | help
  | version
  | old
  | new
  | staged
  | mergeBase
  | input
  | context
  | noColor
  | format
  | output
  | exportDir
  | request
  | feedback
  | init
  deriving DecidableEq, Repr

/-- What an option takes. A path must not be empty, a number must fit a line number. -/
inductive Operand where
  | none
  | text
  | path
  | number
  deriving DecidableEq, Repr

structure Opt where
  slot : Slot
  long : String
  short : Option Char := none
  operand : Operand := .none
  deriving DecidableEq, Repr

inductive UsageError where
  | missingValue
  | badValue
  | unwantedValue
  | repeated
  | unknownArgument
  | unknownCommand
  | excluded
  | required
  deriving DecidableEq, Repr

inductive Stop where
  | usage (error : UsageError)
  | help
  | version
  deriving DecidableEq, Repr

structure Grammar where
  options : List Opt
  positions : List Slot := []
  /-- Pairs of which at most one may be given. -/
  exclusions : List (Slot × Slot) := []
  /-- The first of a pair needs the second. -/
  needs : List (Slot × Slot) := []

/-- A whole number with an optional sign, when it is a line number. -/
def number? (text : String) : Option LineNo :=
  let digits? (cs : List Char) : Option Nat :=
    if !cs.isEmpty && cs.all Char.isDigit then
      some (cs.foldl (fun n c => 10 * n + (c.toNat - '0'.toNat)) 0)
    else none
  match text.toList with
  | '-' :: cs => (digits? cs).bind fun n => if n = 0 then LineNo.ofNat? 0 else none
  | '+' :: cs => (digits? cs).bind LineNo.ofNat?
  | cs => (digits? cs).bind LineNo.ofNat?

def Operand.check (o : Operand) (value : String) : Except UsageError Unit :=
  match o with
  | .none | .text => .ok ()
  | .path => if value.isEmpty then .error .missingValue else .ok ()
  | .number => if (number? value).isSome then .ok () else .error .badValue

/-- The values taken, and an option or position whose value is still to be taken or to come. -/
structure Reading where
  values : List (Slot × String) := []
  pending : Option (Slot × Operand × Option String) := none
  deriving DecidableEq, Repr

namespace Reading

def given (r : Reading) (slot : Slot) : Bool :=
  r.values.any (·.1 == slot)

def value? (r : Reading) (slot : Slot) : Option String :=
  r.values.lookup slot

def take (r : Reading) (slot : Slot) (operand : Operand) (value : String) :
    Except Stop Reading :=
  if r.given slot then .error (.usage .repeated)
  else
    match operand.check value with
    | .error e => .error (.usage e)
    | .ok () => .ok { r with values := r.values ++ [(slot, value)] }

def settle (r : Reading) : Except Stop Reading :=
  match r.pending with
  | none => .ok r
  | some (_, _, none) => .error (.usage .missingValue)
  | some (slot, operand, some value) => { r with pending := none }.take slot operand value

def takeFlag (r : Reading) (slot : Slot) : Except Stop Reading := do
  let r ← r.settle
  match slot with
  | .help => .error .help
  | .version => .error .version
  | slot => r.take slot .none ""

def takeAttached (r : Reading) (o : Opt) (value : String) : Except Stop Reading := do
  (← r.settle).take o.slot o.operand value

def await (r : Reading) (o : Opt) : Except Stop Reading := do
  return { (← r.settle) with pending := some (o.slot, o.operand, none) }

end Reading

/-! ## One argument -/

inductive Word where
  | escape
  | long (name : String) (value : Option String)
  | short (letters : List Char)
  | plain
  deriving DecidableEq, Repr

/-- The shape of an argument. A lone hyphen is a plain word. -/
def Word.of (arg : String) : Word :=
  match arg.toList with
  | ['-', '-'] => .escape
  | '-' :: '-' :: cs =>
    let name := String.ofList (cs.takeWhile (· != '='))
    match cs.dropWhile (· != '=') with
    | [] => .long name none
    | _ :: value => .long name (some (String.ofList value))
  | '-' :: c :: cs => .short (c :: cs)
  | _ => .plain

namespace Grammar

def long? (g : Grammar) (name : String) : Option Opt :=
  g.options.find? (·.long == name)

def short? (g : Grammar) (letter : Char) : Option Opt :=
  g.options.find? (·.short == some letter)

def readLong (g : Grammar) (r : Reading) (name : String) (value : Option String) :
    Except Stop Reading :=
  match g.long? name with
  | none => .error (.usage .unknownArgument)
  | some o =>
    match o.operand, value with
    | .none, none => r.takeFlag o.slot
    | .none, some _ => .error (.usage .unwantedValue)
    | _, some value => r.takeAttached o value
    | _, none => r.await o

/-- Read letters of options, the last of which may have a value attached, perhaps after `=`. -/
def readShort (g : Grammar) (r : Reading) : List Char → Except Stop Reading
  | [] => .ok r
  | c :: cs =>
    match g.short? c with
    | none => .error (.usage .unknownArgument)
    | some o =>
      match o.operand, cs with
      | .none, cs => do g.readShort (← r.takeFlag o.slot) cs
      | _, [] => r.await o
      | _, '=' :: value => r.takeAttached o (String.ofList value)
      | _, value => r.takeAttached o (String.ofList value)

/-- Read a word that stands by itself: the value of an option that waits for one, or else the next
position, of which `used` are filled. -/
def readPosition (g : Grammar) (r : Reading) (used : Nat) (arg : String) :
    Except Stop (Reading × Nat) :=
  match g.positions[used]? with
  | none => .error (.usage .unknownArgument)
  | some slot => do
    return ({ (← r.settle) with pending := some (slot, .text, some arg) }, used + 1)

def read (g : Grammar) (escaped : Bool) (used : Nat) (r : Reading) :
    List String → Except Stop Reading
  | [] => r.settle
  | arg :: rest =>
    let position : Except Stop Reading := do
      let (r, used) ← g.readPosition r used arg
      g.read escaped used r rest
    if escaped then position
    else
      match Word.of arg with
      | .escape => g.read true used r rest
      | .long name value => do g.read escaped used (← g.readLong r name value) rest
      | .short letters => do g.read escaped used (← g.readShort r letters) rest
      | .plain =>
        match r.pending with
        | some (slot, operand, none) =>
          g.read escaped used { r with pending := some (slot, operand, some arg) } rest
        | _ => position

/-- Whether something given excludes the slot. -/
def isExcluded (g : Grammar) (r : Reading) (slot : Slot) : Bool :=
  g.exclusions.any fun (a, b) => (a == slot && r.given b) || (b == slot && r.given a)

/-- Check what excludes and then what needs what. What is needed may be left out when something
given excludes it. -/
def check (g : Grammar) (r : Reading) : Except Stop Unit :=
  if g.exclusions.any fun (a, b) => r.given a && r.given b then .error (.usage .excluded)
  else if g.needs.any fun (a, b) => r.given a && !r.given b && !g.isExcluded r b then
    .error (.usage .required)
  else .ok ()

def readAll (g : Grammar) (args : List String) : Except Stop Reading := do
  let r ← g.read false 0 {} args
  g.check r
  return r

end Grammar

end HunkReview.CommandLine
