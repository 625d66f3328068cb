import HunkReview.Text.Lines

/-!
# TOML strings

Strings are written between quotes of four kinds: basic ones with escapes and literal ones
without, each on one line or as a block. A block may begin with a line feed that does not count,
and up to two quotes may stand right before its closing ones. Carriage returns before line feeds
are taken out of the document before strings are read.
-/

namespace HunkReview.Toml

def isSpace (c : Char) : Bool :=
  c = ' ' || c = '\t'

def isPlain (c : Char) : Bool :=
  c = '\t' || (0x20 ≤ c.toNat && c.toNat != 0x7F)

def backslash : Char := '\x5c'

def basicQuote : Char := '\x22'

def literalQuote : Char := '\x27'

def hexDigit? (c : Char) : Option Nat :=
  if c.isDigit then some (c.toNat - 0x30)
  else if 0x61 ≤ c.toNat ∧ c.toNat ≤ 0x66 then some (c.toNat - 0x57)
  else if 0x41 ≤ c.toNat ∧ c.toNat ≤ 0x46 then some (c.toNat - 0x37)
  else none

/-- The character of a code point in hexadecimal digits; surrogates are no characters. -/
def ofHex? (digits : List Char) : Option Char := do
  let values ← digits.mapM hexDigit?
  let n := values.foldl (fun n d => 16 * n + d) 0
  if n < 0xD800 ∨ (0xDFFF < n ∧ n < 0x110000) then some (Char.ofNat n) else none

def shortEscape? (c : Char) : Option Char :=
  if c = 'b' then some '\x08'
  else if c = 't' then some '\t'
  else if c = 'n' then some '\n'
  else if c = 'f' then some '\x0c'
  else if c = 'r' then some '\r'
  else if c = basicQuote ∨ c = backslash then some c
  else none

def prepend (c : Option Char) (read : Option (List Char × List Char)) :
    Option (List Char × List Char) :=
  match c, read with
  | some c, some (text, rest) => some (c :: text, rest)
  | _, _ => none

def countQuotes (quote : Char) (cs : List Char) : Nat :=
  (cs.takeWhile (· == quote)).length

/-- The end of a block, if its closing quotes are at the start: the quotes that belong to the
text, and the rest. -/
def blockEnd? (quote : Char) (cs : List Char) : Option (List Char × List Char) :=
  let n := countQuotes quote cs
  if n < 3 then none
  else some (List.replicate (min (n - 3) 2) quote, cs.drop (min n 5))

def readBasic : List Char → Option (List Char × List Char)
  | [] => none
  | c :: rest =>
    if c = basicQuote then some ([], rest)
    else if c = backslash then
      match rest with
      | [] => none
      | e :: rest =>
        if e = 'u' then
          match rest with
          | x₁ :: x₂ :: x₃ :: x₄ :: rest => prepend (ofHex? [x₁, x₂, x₃, x₄]) (readBasic rest)
          | _ => none
        else if e = 'U' then
          match rest with
          | x₁ :: x₂ :: x₃ :: x₄ :: x₅ :: x₆ :: x₇ :: x₈ :: rest =>
            prepend (ofHex? [x₁, x₂, x₃, x₄, x₅, x₆, x₇, x₈]) (readBasic rest)
          | _ => none
        else prepend (shortEscape? e) (readBasic rest)
    else if isPlain c then prepend (some c) (readBasic rest)
    else none

/-- The text of a basic block. After a backslash at the end of a line blanks and line feeds are
skipped. -/
def readBasicBlock (skipping : Bool) : List Char → Option (List Char × List Char)
  | [] => none
  | c :: rest =>
    if skipping && (isSpace c || c = '\n') then readBasicBlock true rest
    else if c = basicQuote then
      match blockEnd? basicQuote (c :: rest) with
      | some found => some found
      | none => prepend (some c) (readBasicBlock false rest)
    else if c = backslash then
      if (rest.dropWhile isSpace).head? = some '\n' then readBasicBlock true rest
      else
        match rest with
        | [] => none
        | e :: rest =>
          if e = 'u' then
            match rest with
            | x₁ :: x₂ :: x₃ :: x₄ :: rest =>
              prepend (ofHex? [x₁, x₂, x₃, x₄]) (readBasicBlock false rest)
            | _ => none
          else if e = 'U' then
            match rest with
            | x₁ :: x₂ :: x₃ :: x₄ :: x₅ :: x₆ :: x₇ :: x₈ :: rest =>
              prepend (ofHex? [x₁, x₂, x₃, x₄, x₅, x₆, x₇, x₈]) (readBasicBlock false rest)
            | _ => none
          else prepend (shortEscape? e) (readBasicBlock false rest)
    else if isPlain c || c = '\n' then prepend (some c) (readBasicBlock false rest)
    else none

def readLiteral : List Char → Option (List Char × List Char)
  | [] => none
  | c :: rest =>
    if c = literalQuote then some ([], rest)
    else if isPlain c then prepend (some c) (readLiteral rest)
    else none

def readLiteralBlock : List Char → Option (List Char × List Char)
  | [] => none
  | c :: rest =>
    if c = literalQuote then
      match blockEnd? literalQuote (c :: rest) with
      | some found => some found
      | none => prepend (some c) (readLiteralBlock rest)
    else if isPlain c || c = '\n' then prepend (some c) (readLiteralBlock rest)
    else none

def dropLineFeed : List Char → List Char
  | '\n' :: cs => cs
  | cs => cs

/-- A string on one line, as keys may have it. -/
def readLineString (cs : List Char) : Option (String × List Char) :=
  match cs with
  | c :: rest =>
    if c = basicQuote then (readBasic rest).map fun r => (String.ofList r.1, r.2)
    else if c = literalQuote then (readLiteral rest).map fun r => (String.ofList r.1, r.2)
    else none
  | [] => none

def readString (cs : List Char) : Option (String × List Char) :=
  match Text.stripStart? [basicQuote, basicQuote, basicQuote] cs with
  | some rest =>
    (readBasicBlock false (dropLineFeed rest)).map fun r => (String.ofList r.1, r.2)
  | none =>
    match Text.stripStart? [literalQuote, literalQuote, literalQuote] cs with
    | some rest => (readLiteralBlock (dropLineFeed rest)).map fun r => (String.ofList r.1, r.2)
    | none => readLineString cs

end HunkReview.Toml
