import HunkReview.Text.Hex

/-!
# JSON values

Values with fields in order of insertion, and their printed form: two spaces of indentation, one
item per line, empty arrays and objects on one line.
-/

namespace HunkReview

inductive Json where
  | null
  | number (n : Nat)
  | text (s : String)
  | array (items : List Json)
  | object (fields : List (String × Json))
  deriving Repr

namespace Json

def ofOption {α : Type} (encode : α → Json) : Option α → Json
  | none => null
  | some a => encode a

/-- A character inside quotes. Controls without a short form are written by their number. -/
def escapeChar (c : Char) : List Char :=
  if c = '"' then ['\\', '"']
  else if c = '\\' then ['\\', '\\']
  else if c = '\x08' then ['\\', 'b']
  else if c = '\x0c' then ['\\', 'f']
  else if c = '\n' then ['\\', 'n']
  else if c = '\r' then ['\\', 'r']
  else if c = '\t' then ['\\', 't']
  else if c.toNat < 0x20 then '\\' :: 'u' :: Text.hexDigits 4 c.toNat
  else [c]

def quote (s : String) : List Char :=
  '"' :: s.toList.flatMap escapeChar ++ ['"']

def newLine (depth : Nat) : List Char :=
  '\n' :: List.replicate (2 * depth) ' '

mutual

/-- The value's text at a nesting depth. -/
def printAt (depth : Nat) : Json → List Char
  | null => "null".toList
  | number n => Nat.toDigits 10 n
  | text s => quote s
  | array [] => ['[', ']']
  | array (item :: items) =>
    '[' :: newLine (depth + 1) ++ printAt (depth + 1) item ++ printItems (depth + 1) items ++
      newLine depth ++ [']']
  | object [] => ['\x7b', '\x7d']
  | object (field :: fields) =>
    '\x7b' :: newLine (depth + 1) ++ quote field.1 ++ [':', ' '] ++
      printAt (depth + 1) field.2 ++ printFields (depth + 1) fields ++ newLine depth ++ ['\x7d']

def printItems (depth : Nat) : List Json → List Char
  | [] => []
  | item :: items => ',' :: newLine depth ++ printAt depth item ++ printItems depth items

def printFields (depth : Nat) : List (String × Json) → List Char
  | [] => []
  | field :: fields =>
    ',' :: newLine depth ++ quote field.1 ++ [':', ' '] ++ printAt depth field.2 ++
      printFields depth fields

end

def print (j : Json) : String :=
  String.ofList (j.printAt 0)

end Json

end HunkReview
