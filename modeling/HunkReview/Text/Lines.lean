/-!
# Lines of a text

`pieces` cuts at every line feed and keeps empty pieces; `lines` reads the pieces as lines: a
carriage return before a line feed belongs to the line end, and a text that ends in a line feed
has no further line after it.
-/

namespace HunkReview.Text

/-- The stretches between line feeds, one more than there are line feeds. -/
def pieces : List Char → List (List Char)
  | [] => [[]]
  | c :: cs =>
    if c = '\n' then [] :: pieces cs
    else
      match pieces cs with
      | [] => [[c]]
      | p :: ps => (c :: p) :: ps

/-- Drop one final carriage return. -/
def dropReturn (cs : List Char) : List Char :=
  if cs.getLast? = some '\r' then cs.dropLast else cs

/-- Read the pieces of a text as its lines: all but the last were ended by a line feed. -/
def closeLines : List (List Char) → List (List Char)
  | [] => []
  | [p] => if p.isEmpty then [] else [p]
  | p :: q :: ps => dropReturn p :: closeLines (q :: ps)

def lines (cs : List Char) : List (List Char) :=
  closeLines (pieces cs)

def stringLines (text : String) : List String :=
  (lines text.toList).map String.ofList

def joinLines (ls : List String) : String :=
  "\n".intercalate ls

def stripStart? : List Char → List Char → Option (List Char)
  | [], cs => some cs
  | _ :: _, [] => none
  | b :: bs, c :: cs => if b = c then stripStart? bs cs else none

end HunkReview.Text
