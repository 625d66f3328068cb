import HunkReview.Text.Hex
import HunkReview.Toml.Text

/-!
# Writing TOML strings

A string is written with the plainest quotes that fit it: basic ones when nothing needs an
escape, else literal ones, else the blocks; with escapes when no other way is left.
-/

namespace HunkReview.Toml

def longestRun (c : Char) (run : Nat) : List Char → Nat
  | [] => run
  | d :: cs => if d = c then longestRun c (run + 1) cs else max run (longestRun c 0 cs)

/-- Control characters that only an escape can express. -/
def needsEscape (c : Char) : Bool :=
  (c.toNat < 0x20 || c.toNat = 0x7F) && c != '\t' && c != '\n'

inductive Quoting where
  | basic
  | literal
  | basicBlock
  | literalBlock
  deriving DecidableEq, Repr

def quoting (cs : List Char) : Quoting :=
  let controls := cs.any needsEscape
  let backslashes := cs.contains backslash
  let lineFeeds := cs.contains '\n'
  let basics := longestRun basicQuote 0 cs
  let literals := longestRun literalQuote 0 cs
  if !controls && !backslashes && !lineFeeds && basics = 0 then .basic
  else if !controls && !lineFeeds && literals = 0 then .literal
  else if !controls && !backslashes && basics ≤ 2 then .basicBlock
  else if !controls && literals ≤ 2 then .literalBlock
  else if lineFeeds then .basicBlock
  else .basic

def escapeControl (c : Char) : List Char :=
  if c = '\x08' then [backslash, 'b']
  else if c = '\t' then [backslash, 't']
  else if c = '\n' then [backslash, 'n']
  else if c = '\x0c' then [backslash, 'f']
  else if c = '\r' then [backslash, 'r']
  else backslash :: 'u' :: (Text.hexDigits 4 c.toNat).map Char.toUpper

/-- A basic string's inside. At most `spare` quotes in a row stand unescaped, of which `run` come
right before; line feeds stand for themselves in a block. -/
def escapeBasic (block : Bool) (spare run : Nat) : List Char → List Char
  | [] => []
  | c :: cs =>
    if c = basicQuote then
      if run < spare then c :: escapeBasic block spare (run + 1) cs
      else backslash :: c :: escapeBasic block spare 0 cs
    else if c = backslash then backslash :: c :: escapeBasic block spare 0 cs
    else if c = '\n' ∧ block then c :: escapeBasic block spare 0 cs
    else if c.toNat < 0x20 ∨ c.toNat = 0x7F then escapeControl c ++ escapeBasic block spare 0 cs
    else c :: escapeBasic block spare 0 cs

/-- A block with a line feed in it begins with one more. -/
def blockStart (cs : List Char) : List Char :=
  if cs.contains '\n' then ['\n'] else []

def quote (s : String) : String :=
  let cs := s.toList
  let basics := [basicQuote, basicQuote, basicQuote]
  let literals := [literalQuote, literalQuote, literalQuote]
  String.ofList <|
    match quoting cs with
    | .basic => basicQuote :: escapeBasic false 0 0 cs ++ [basicQuote]
    | .literal => literalQuote :: cs ++ [literalQuote]
    | .basicBlock => basics ++ blockStart cs ++ escapeBasic true 2 0 cs ++ basics
    | .literalBlock => literals ++ blockStart cs ++ cs ++ literals

end HunkReview.Toml
