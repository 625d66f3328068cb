import HunkReview.Toml.Scalar

/-!
# Reading TOML

A document is a sequence of lines: a key with its value, a table header, a comment or nothing.
Values and dotted keys nest less than 80 deep.
-/

namespace HunkReview.Toml

def dropSpaces (cs : List Char) : List Char :=
  cs.dropWhile isSpace

def isKeyChar (c : Char) : Bool :=
  c.isAlphanum || c = '-' || c = '_'

def readName (cs : List Char) : Option (String × List Char) :=
  match cs with
  | [] => none
  | c :: _ =>
    if isKeyChar c then some (String.ofList (cs.takeWhile isKeyChar), cs.dropWhile isKeyChar)
    else readLineString cs

/-- Items with separators between them, at most `fuel`. -/
def readSeparated {α : Type} (separator : Char) (item : List Char → Option (α × List Char)) :
    Nat → List Char → Option (List α × List Char)
  | 0, _ => none
  | fuel + 1, cs => do
    let (a, rest) ← item cs
    match expect separator rest with
    | none => return ([a], rest)
    | some rest => do
      let (as, rest) ← readSeparated separator item fuel rest
      return (a :: as, rest)

def maxDepth : Nat := 79

def readKey (cs : List Char) : Option (List String × List Char) :=
  let spaced (cs : List Char) := (readName (dropSpaces cs)).map fun (n, rest) => (n, dropSpaces rest)
  readSeparated '.' spaced maxDepth cs

def dropLayout (comment : Bool) : List Char → List Char
  | [] => []
  | c :: rest =>
    if comment then
      if c = '\n' then dropLayout false rest
      else if isPlain c then dropLayout true rest
      else c :: rest
    else if isSpace c || c = '\n' then dropLayout false rest
    else if c = '#' then dropLayout true rest
    else c :: rest

/-- The items of an array after its opening bracket. A comma may follow the last one. -/
def readItems (value : List Char → Option (Value × List Char)) :
    Nat → List Char → Option (List Value × List Char)
  | 0, _ => none
  | fuel + 1, cs =>
    let cs := dropLayout false cs
    match expect ']' cs with
    | some rest => some ([], rest)
    | none => do
      let (v, rest) ← value cs
      let rest := dropLayout false rest
      match expect ']' rest with
      | some rest => return ([v], rest)
      | none => do
        let (vs, rest) ← readItems value fuel (← expect ',' rest)
        return (v :: vs, rest)

def readPair (value : List Char → Option (Value × List Char)) (cs : List Char) :
    Option ((List String × Value) × List Char) := do
  let (key, rest) ← readKey cs
  let rest ← expect '=' rest
  let (v, rest) ← value (dropSpaces rest)
  return ((key, v), dropSpaces rest)

/-- Add a value under a key to a table that was not opened by a dotted key. -/
def addPair (entries : Entries) (pair : List String × Value) : Option Entries := do
  let last ← pair.1.getLast?
  Entries.insert last pair.2 pair.1.dropLast .header false entries

def readInline (value : List Char → Option (Value × List Char)) (cs : List Char) :
    Option (Value × List Char) :=
  match expect '\x7d' (dropSpaces cs) with
  | some rest => some (.table [], rest)
  | none => do
    let (pairs, rest) ← readSeparated ',' (readPair value) cs.length cs
    let rest ← expect '\x7d' rest
    let entries ← pairs.foldlM addPair []
    return (.table (entriesToValues entries), rest)

/-- A value with at most so many values around each other inside it. -/
def readValue : Nat → List Char → Option (Value × List Char)
  | _, [] => none
  | depth, c :: rest =>
    if c = basicQuote ∨ c = literalQuote then
      (readString (c :: rest)).map fun (s, rest) => (.text s, rest)
    else if c = '[' then
      match depth with
      | 0 => none
      | depth + 1 => (readItems (readValue depth) (rest.length + 1) rest).map fun (vs, rest) =>
        (.array vs, rest)
    else if c = '\x7b' then
      match depth with
      | 0 => none
      | depth + 1 => readInline (readValue depth) rest
    else if c = 't' then readWord "true" (.boolean true) (c :: rest)
    else if c = 'f' then readWord "false" (.boolean false) (c :: rest)
    else readNumber (c :: rest)

inductive Statement where
  | pair (key : List String) (v : Value)
  | table (key : List String)
  | item (key : List String)

def endLine (cs : List Char) : Option (List Char) :=
  let cs := dropSpaces cs
  let cs := if cs.head? = some '#' then cs.dropWhile isPlain else cs
  match cs with
  | [] => some []
  | '\n' :: rest => some rest
  | _ => none

def readHeader (cs : List Char) : Option (Statement × List Char) :=
  match cs with
  | '[' :: rest => do
    let (key, rest) ← readKey rest
    let rest ← expect ']' rest
    let rest ← expect ']' rest
    return (.item key, ← endLine rest)
  | _ => do
    let (key, rest) ← readKey cs
    let rest ← expect ']' rest
    return (.table key, ← endLine rest)

def readStatement (cs : List Char) : Option (Statement × List Char) :=
  match cs with
  | '[' :: rest => readHeader rest
  | _ => do
    let ((key, v), rest) ← readPair (readValue maxDepth) cs
    return (.pair key v, ← endLine rest)

def readStatements : Nat → List Char → Option (List Statement)
  | 0, _ => none
  | fuel + 1, cs =>
    match dropLayout false cs with
    | [] => some []
    | cs => do
      let (s, rest) ← readStatement cs
      return s :: (← readStatements fuel rest)

/-- A document so far, and the header its next pairs belong to. -/
structure Draft where
  root : Entries := []
  header : List String := []

namespace Draft

def run (d : Draft) : Statement → Option Draft
  | .pair key v => do
    let last ← key.getLast?
    let root ← Entries.descend (fun o es => Entries.insert last v key.dropLast o false es)
      .header d.header d.root
    return { d with root }
  | .table key => do
    let last ← key.getLast?
    let root ← Entries.descend (fun _ es => Entries.openTable last es) .header key.dropLast d.root
    return { root, header := key }
  | .item key => do
    let last ← key.getLast?
    let root ← Entries.descend (fun _ es => Entries.openItem last es) .header key.dropLast d.root
    return { root, header := key }

end Draft

/-- Take the carriage return out of each line end. -/
def joinLineEnds : List Char → List Char
  | [] => []
  | '\r' :: '\n' :: cs => '\n' :: joinLineEnds cs
  | c :: cs => c :: joinLineEnds cs

def dropByteOrderMark : List Char → List Char
  | '\uFEFF' :: cs => cs
  | cs => cs

def parse? (text : String) : Option (List (String × Value)) := do
  let cs := joinLineEnds (dropByteOrderMark text.toList)
  let statements ← readStatements (cs.length + 1) cs
  let draft ← statements.foldlM Draft.run {}
  return entriesToValues draft.root

end HunkReview.Toml
