/-!
# Cells and looks

A cell of the screen shows one symbol in colors and effects. A look says which of these to
change; what it leaves open stays as it is.
-/

namespace HunkReview.Screen

inductive Color where
  | reset
  | black
  | red
  | green
  | yellow
  | blue
  | magenta
  | cyan
  | darkGray
  deriving DecidableEq, Repr

def Color.name : Color → String
  | reset => "Reset"
  | black => "Black"
  | red => "Red"
  | green => "Green"
  | yellow => "Yellow"
  | blue => "Blue"
  | magenta => "Magenta"
  | cyan => "Cyan"
  | darkGray => "DarkGray"

structure Effects where
  bold : Bool := false
  dim : Bool := false
  italic : Bool := false
  underlined : Bool := false
  reversed : Bool := false
  crossedOut : Bool := false
  deriving DecidableEq, Repr

def Effects.union (a b : Effects) : Effects where
  bold := a.bold || b.bold
  dim := a.dim || b.dim
  italic := a.italic || b.italic
  underlined := a.underlined || b.underlined
  reversed := a.reversed || b.reversed
  crossedOut := a.crossedOut || b.crossedOut

def Effects.names (e : Effects) : List String :=
  [(e.bold, "BOLD"), (e.dim, "DIM"), (e.italic, "ITALIC"), (e.underlined, "UNDERLINED"),
    (e.reversed, "REVERSED"), (e.crossedOut, "CROSSED_OUT")].filterMap fun (on, name) =>
      if on then some name else none

structure Look where
  foreground : Option Color := none
  background : Option Color := none
  effects : Effects := {}
  deriving DecidableEq, Repr

/-- The symbol is one character as read, which may be several code points. -/
structure Cell where
  symbol : List Char := [' ']
  foreground : Color := .reset
  background : Color := .reset
  effects : Effects := {}
  deriving DecidableEq, Repr

namespace Cell

def blank : Cell := {}

/-- Change what the look sets, and add its effects. -/
def restyle (look : Look) (c : Cell) : Cell where
  symbol := c.symbol
  foreground := look.foreground.getD c.foreground
  background := look.background.getD c.background
  effects := c.effects.union look.effects

def write (symbol : List Char) (look : Look) (c : Cell) : Cell :=
  { c with symbol }.restyle look

def append (symbol : List Char) (look : Look) (c : Cell) : Cell :=
  { c with symbol := c.symbol ++ symbol }.restyle look

def sameStyle (a b : Cell) : Bool :=
  a.foreground == b.foreground && a.background == b.background && a.effects == b.effects

@[simp] theorem symbol_restyle (look : Look) (c : Cell) : (c.restyle look).symbol = c.symbol :=
  rfl

@[simp] theorem symbol_write (symbol : List Char) (look : Look) (c : Cell) :
    (c.write symbol look).symbol = symbol :=
  rfl

end Cell

end HunkReview.Screen
