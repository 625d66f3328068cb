/-!
# Keys
-/

namespace HunkReview

inductive Key where
  | char (c : Char)
  | enter
  | escape
  | backspace
  | delete
  | tab
  | up
  | down
  | left
  | right
  | home
  | endKey
  | pageUp
  | pageDown
  | function (number : Nat)
  deriving DecidableEq, Repr

namespace Key

def names : List (String × Key) :=
  [("Enter", enter), ("Esc", escape), ("Backspace", backspace), ("Delete", delete), ("Tab", tab),
    ("Up", up), ("Down", down), ("Left", left), ("Right", right), ("Home", home), ("End", endKey),
    ("PageUp", pageUp), ("PageDown", pageDown), ("F1", function 1)]

/-- The key of a name; a character names itself. -/
def ofName? (name : String) : Option Key :=
  match name.toList with
  | [c] => some (char c)
  | _ => names.lookup name

end Key

structure KeyPress where
  key : Key
  control : Bool := false
  alt : Bool := false
  deriving DecidableEq, Repr

/-- The key of a name, with `C-` before it for Control or `A-` for Alt. -/
def KeyPress.ofName? (name : String) : Option KeyPress :=
  match name.toList with
  | 'C' :: '-' :: c :: cs =>
    (Key.ofName? (String.ofList (c :: cs))).map fun key => { key, control := true }
  | 'A' :: '-' :: c :: cs =>
    (Key.ofName? (String.ofList (c :: cs))).map fun key => { key, alt := true }
  | _ => (Key.ofName? name).map fun key => { key }

end HunkReview
