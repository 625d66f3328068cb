import HunkReview.Path
import HunkReview.Text.Utf8

/-!
# Disks

A disk is a tree of directories and files, as far as reading and writing files by path needs it.
Paths are followed name by name from the root or from the working directory; `..` is the directory
above. Each operation that fails says why.
-/

namespace HunkReview

inductive DiskError where
  | missing
  | occupied
  | notDirectory
  | isDirectory
  | nameTooLong
  | nulInName
  | notText
  deriving DecidableEq, Repr

def DiskError.message : DiskError → String
  | missing => "No such file or directory (os error 2)"
  | occupied => "File exists (os error 17)"
  | notDirectory => "Not a directory (os error 20)"
  | isDirectory => "Is a directory (os error 21)"
  | nameTooLong => "File name too long (os error 36)"
  | nulInName => "file name contained an unexpected NUL byte"
  | notText => "stream did not contain valid UTF-8"

inductive Node where
  | file (content : ByteArray)
  | directory

/-- Nodes by the names that lead to them from the root, in order of creation, and the working
directory. The root itself is not listed. -/
structure Disk where
  nodes : List (List String × Node) := []
  working : List String := []

namespace Disk

def node? (d : Disk) (place : List String) : Option Node :=
  if place.isEmpty then some .directory else (d.nodes.find? (·.1 == place)).map (·.2)

def isDirectoryAt (d : Disk) (place : List String) : Bool :=
  match d.node? place with
  | some .directory => true
  | _ => false

def put (d : Disk) (place : List String) (node : Node) : Disk :=
  if d.nodes.any (·.1 == place) then
    { d with nodes := d.nodes.map fun e => if e.1 == place then (place, node) else e }
  else { d with nodes := d.nodes ++ [(place, node)] }

def enter (d : Disk) (place : List String) (name : String) : Except DiskError (List String) :=
  match d.node? place with
  | none => .error .missing
  | some (.file _) => .error .notDirectory
  | some .directory =>
    if 255 < name.utf8ByteSize then .error .nameTooLong
    else if name = ".." then .ok place.dropLast
    else .ok (place ++ [name])

/-- The place a path leads to, whether or not there is a node. -/
def follow (d : Disk) (names : List String) : Except DiskError (List String) :=
  match names with
  | "/" :: rest => rest.foldlM d.enter []
  | "." :: rest => rest.foldlM d.enter d.working
  | rest => rest.foldlM d.enter d.working

/-- Whether a path can only lead to a directory. -/
def wantsDirectory (path : String) : Bool :=
  match (Path.splitSlash path.toList).getLast? with
  | some last => !Path.isNamed last || last == ['.', '.']
  | none => true

def place (d : Disk) (path : String) : Except DiskError (List String) :=
  if path.isEmpty then .error .missing
  else if path.toList.contains '\x00' then .error .nulInName
  else d.follow (Path.components path)

def readBytes (d : Disk) (path : String) : Except DiskError ByteArray := do
  let place ← d.place path
  match d.node? place with
  | none => .error .missing
  | some .directory => .error .isDirectory
  | some (.file content) => if wantsDirectory path then .error .notDirectory else .ok content

def readText (d : Disk) (path : String) : Except DiskError String := do
  match Text.decodeStrict? (← d.readBytes path) with
  | some text => .ok text
  | none => .error .notText

def exists? (d : Disk) (path : String) : Bool :=
  match d.place path with
  | .error _ => false
  | .ok place =>
    match d.node? place with
    | none => false
    | some .directory => true
    | some (.file _) => !wantsDirectory path

def makeDirectory (d : Disk) (names : List String) : Except DiskError Disk := do
  let place ← d.follow names
  match d.node? place with
  | some _ => .error .occupied
  | none => .ok (d.put place .directory)

def leadsToDirectory (d : Disk) (names : List String) : Bool :=
  match d.follow names with
  | .ok place => d.isDirectoryAt place
  | .error _ => false

/-- Make a directory and those above it that are missing; the names come last one first. -/
def makeDirectories (d : Disk) : List String → Except DiskError Disk
  | [] => .ok d
  | name :: above =>
    let names := (name :: above).reverse
    match d.makeDirectory names with
    | .ok d => .ok d
    | .error .missing => do
      let d ← makeDirectories d above
      match d.makeDirectory names with
      | .ok d => .ok d
      | .error e => if d.leadsToDirectory names then .ok d else .error e
    | .error e => if d.leadsToDirectory names then .ok d else .error e

def writeBytes (d : Disk) (path : String) (content : ByteArray) : Except DiskError Disk := do
  let place ← d.place path
  match d.node? place with
  | some .directory => .error .isDirectory
  | some (.file _) =>
    if wantsDirectory path then .error .notDirectory else .ok (d.put place (.file content))
  | none =>
    if wantsDirectory path then .error .isDirectory
    else if d.isDirectoryAt place.dropLast then .ok (d.put place (.file content))
    else .error .missing

def makePath (d : Disk) (path : String) : Except DiskError Disk :=
  if path.toList.contains '\x00' then .error .nulInName
  else d.makeDirectories (Path.components path).reverse

def writeText (d : Disk) (path text : String) : Except DiskError Disk :=
  d.writeBytes path text.toUTF8

end Disk

end HunkReview
