/-!
# TOML values

A document is a table of values. While it is read, tables remember how they were opened: a table
may be opened by its own header, by the header of a table inside it, or by a dotted key, and each
way allows other additions.
-/

namespace HunkReview.Toml

inductive Value where
  | text (s : String)
  | integer (n : Int)
  | float (literal : String)
  | boolean (b : Bool)
  | time (literal : String)
  | array (items : List Value)
  | table (entries : List (String × Value))
  deriving Repr

/-- How a table came to be. -/
inductive Opening where
  /-- By its own header. -/
  | header
  /-- On the way to the header of a table inside it. -/
  | passing
  /-- By a dotted key. -/
  | dotted
  deriving DecidableEq, Repr

inductive Node where
  | value (v : Value)
  | table (opening : Opening) (entries : List (String × Node))
  | tables (items : List (List (String × Node)))
  deriving Repr

abbrev Entries := List (String × Node)

namespace Entries

def get? (entries : Entries) (key : String) : Option Node :=
  entries.lookup key

def put (entries : Entries) (key : String) (node : Node) : Entries :=
  if entries.any (·.1 == key) then
    entries.map fun e => if e.1 == key then (key, node) else e
  else entries ++ [(key, node)]

/-- A change inside a node that holds a table: the table itself, or the last one of an array. -/
def inside (change : Opening → Entries → Option Entries) : Node → Option Node
  | .value _ => none
  | .table opening entries => (change opening entries).map (.table opening)
  | .tables [] => none
  | .tables (item :: items) =>
    let all := item :: items
    (change .header (all.getLastD [])).map fun last => .tables (all.dropLast ++ [last])

/-- Go down a path of headers, opening what is missing, and change the table at its end. -/
def descend (change : Opening → Entries → Option Entries) (opening : Opening) :
    List String → Entries → Option Entries
  | [], entries => change opening entries
  | key :: path, entries =>
    let node := (entries.get? key).getD (.table .passing [])
    (inside (fun o es => descend change o path es) node).map (entries.put key)

/-- Add a value under a dotted key. A table with a header of its own takes no dotted additions,
and a table takes additions only the way it was opened. -/
def insert (key : String) (v : Value) : List String → Opening → Bool → Entries → Option Entries
  | [], opening, viaDot, entries =>
    if (opening == .dotted) != viaDot then none
    else if (entries.get? key).isSome then none
    else some (entries ++ [(key, .value v)])
  | name :: path, _, _, entries =>
    match (entries.get? name).getD (.table .dotted []) with
    | .table .header _ => none
    | node => (inside (fun o es => insert key v path o true es) node).map (entries.put name)

/-- Open a table by its header. -/
def openTable (key : String) (entries : Entries) : Option Entries :=
  match entries.get? key with
  | none => some (entries ++ [(key, .table .header [])])
  | some (.table .passing inner) => some (entries.put key (.table .header inner))
  | some _ => none

def openItem (key : String) (entries : Entries) : Option Entries :=
  match entries.get? key with
  | none => some (entries ++ [(key, .tables [[]])])
  | some (.tables items) => some (entries.put key (.tables (items ++ [[]])))
  | some _ => none

end Entries

mutual

def Node.toValue : Node → Value
  | .value v => v
  | .table _ entries => .table (entriesToValues entries)
  | .tables items => .array (itemsToValues items)

def entriesToValues : List (String × Node) → List (String × Value)
  | [] => []
  | (key, node) :: rest => (key, node.toValue) :: entriesToValues rest

def itemsToValues : List (List (String × Node)) → List Value
  | [] => []
  | item :: rest => .table (entriesToValues item) :: itemsToValues rest

end

end HunkReview.Toml
