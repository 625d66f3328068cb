/-!
# Paths

Paths are compared by components: repeated and trailing slashes and inner `.` vanish, `..` stays.
A leading slash is the component `/`, a leading `.` of a relative path is kept.
-/

namespace HunkReview.Path

def splitSlash : List Char → List (List Char)
  | [] => [[]]
  | c :: cs =>
    if c = '/' then [] :: splitSlash cs
    else
      match splitSlash cs with
      | [] => [[c]]
      | p :: ps => (c :: p) :: ps

def isNamed (name : List Char) : Bool :=
  !name.isEmpty && name != ['.']

def names (parts : List (List Char)) : List String :=
  (parts.filter isNamed).map String.ofList

def components (path : String) : List String :=
  match splitSlash path.toList with
  | [] :: part :: rest => "/" :: names (part :: rest)
  | ['.'] :: rest => "." :: names rest
  | parts => names parts

def isAbsolute (path : String) : Bool :=
  path.toList.head? = some '/'

/-- `path` seen from `base`: an absolute path stands for itself. -/
def join (base path : String) : String :=
  if isAbsolute path then path
  else if base.isEmpty || base.toList.getLast? = some '/' then base ++ path
  else base ++ "/" ++ path

def startsWith (path base : String) : Bool :=
  (components base).isPrefixOf (components path)

def below? (path base : String) : Option (List String) :=
  if startsWith path base then some ((components path).drop (components base).length) else none

def parent? (path : String) : Option String :=
  match (components path).reverse with
  | [] | ["/"] => none
  | _ :: dirs =>
    match dirs.reverse with
    | "/" :: rest => some ("/" ++ "/".intercalate rest)
    | rest => some ("/".intercalate rest)

end HunkReview.Path
