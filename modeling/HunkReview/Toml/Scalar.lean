import HunkReview.Toml.Text
import HunkReview.Toml.Value

/-!
# TOML numbers, times and words

Values without inner values, except strings. Numbers may have single underscores between digits;
integers must fit 64 bits with a sign, floats must be below infinity. Dates must exist.
-/

namespace HunkReview.Toml

/-- Further digits after a first one, with single underscores between them. -/
def moreDigits (ok : Char → Bool) : List Char → Option (List Char × List Char)
  | [] => some ([], [])
  | c :: rest =>
    if ok c then prepend (some c) (moreDigits ok rest)
    else if c = '_' then
      match rest with
      | d :: rest => if ok d then prepend (some d) (moreDigits ok rest) else none
      | [] => none
    else some ([], c :: rest)

def someDigits (ok : Char → Bool) : List Char → Option (List Char × List Char)
  | c :: rest => if ok c then prepend (some c) (moreDigits ok rest) else none
  | [] => none

/-- Decimal digits; a leading zero stands alone. -/
def wholeDigits : List Char → Option (List Char × List Char)
  | '0' :: rest => some (['0'], rest)
  | cs => someDigits Char.isDigit cs

def ofDigits (base : Nat) (digits : List Char) : Nat :=
  digits.foldl (fun n c => base * n + (hexDigit? c).getD 0) 0

def integer? (n : Int) : Option Value :=
  if -9223372036854775808 ≤ n ∧ n ≤ 9223372036854775807 then some (.integer n) else none

def readBased (base : Nat) (cs : List Char) : Option (Value × List Char) := do
  let ok (c : Char) : Bool := (hexDigit? c).any (· < base)
  let (digits, rest) ← someDigits ok cs
  return (← integer? (ofDigits base digits), rest)

/-- A sign, read as whether it is a minus. -/
def readSign : List Char → Bool × List Char
  | '-' :: rest => (true, rest)
  | '+' :: rest => (false, rest)
  | cs => (false, cs)

/-- Whether `digits · 10 ^ exponent` stays below the half-way point from the largest 64-bit float
to the next power of two. -/
def isFinite (digits : List Char) (exponent : Int) : Bool :=
  let digits := digits.dropWhile (· == '0')
  let order := digits.length + exponent
  if digits.isEmpty ∨ order ≤ 308 then true
  else if 310 ≤ order then false
  else
    let limit := Nat.pow 2 1024 - Nat.pow 2 970
    if 0 ≤ exponent then ofDigits 10 digits * Nat.pow 10 exponent.toNat < limit
    else ofDigits 10 digits < limit * Nat.pow 10 exponent.natAbs

def readFraction : List Char → Option (List Char × List Char)
  | '.' :: rest => someDigits Char.isDigit rest
  | _ => none

def readExponent : List Char → Option (Int × List Char)
  | c :: rest =>
    if c = 'e' ∨ c = 'E' then
      let (minus, rest) := readSign rest
      (someDigits Char.isDigit rest).map fun (digits, rest) =>
        (if minus then -(ofDigits 10 digits : Int) else ofDigits 10 digits, rest)
    else none
  | [] => none

def startsExponent (cs : List Char) : Bool :=
  cs.head? == some 'e' || cs.head? == some 'E'

/-- A decimal number: an integer, or a float when a point or an exponent follows. -/
def readDecimal (cs : List Char) : Option (Value × List Char) := do
  let (minus, rest) := readSign cs
  let (whole, rest) ← wholeDigits rest
  let (fraction, afterFraction) ←
    if rest.head? = some '.' then readFraction rest else some ([], rest)
  let (exponent, last) ←
    if startsExponent afterFraction then readExponent afterFraction else some (0, afterFraction)
  if fraction.isEmpty && !startsExponent afterFraction then
    let n : Int := ofDigits 10 whole
    return (← integer? (if minus then -n else n), last)
  else if minus || isFinite (whole ++ fraction) (exponent - fraction.length) then
    return (.float (String.ofList (cs.take (cs.length - last.length))), last)
  else none

def readWord (word : String) (v : Value) (cs : List Char) : Option (Value × List Char) :=
  (Text.stripStart? word.toList cs).map (v, ·)

def readSpecialFloat (cs : List Char) : Option (Value × List Char) :=
  let rest := (readSign cs).2
  (readWord "inf" (.float "inf") rest).or (readWord "nan" (.float "nan") rest)

def fixedDigits (n : Nat) (cs : List Char) : Option (Nat × List Char) :=
  let digits := cs.take n
  if digits.length = n ∧ digits.all Char.isDigit then some (ofDigits 10 digits, cs.drop n) else none

def expect (c : Char) : List Char → Option (List Char)
  | d :: rest => if d = c then some rest else none
  | [] => none

def twoDigits (low high : Nat) (cs : List Char) : Option (Nat × List Char) := do
  let (n, rest) ← fixedDigits 2 cs
  if low ≤ n ∧ n ≤ high then some (n, rest) else none

def daysIn (year month : Nat) : Nat :=
  if month = 2 then
    if year % 4 = 0 ∧ (year % 100 ≠ 0 ∨ year % 400 = 0) then 29 else 28
  else if month = 4 ∨ month = 6 ∨ month = 9 ∨ month = 11 then 30
  else 31

def afterDate (cs : List Char) : Option (List Char) := do
  let (year, cs) ← fixedDigits 4 cs
  let cs ← expect '-' cs
  let (month, cs) ← twoDigits 1 12 cs
  let cs ← expect '-' cs
  let (_, cs) ← twoDigits 1 (daysIn year month) cs
  return cs

def afterTime (cs : List Char) : Option (List Char) := do
  let (_, cs) ← twoDigits 0 23 cs
  let cs ← expect ':' cs
  let (_, cs) ← twoDigits 0 59 cs
  let cs ← expect ':' cs
  let (_, cs) ← twoDigits 0 60 cs
  match cs with
  | '.' :: rest =>
    if rest.head?.any Char.isDigit then some (rest.dropWhile Char.isDigit) else none
  | cs => some cs

/-- The rest after an offset from universal time, which may be left out. -/
def afterOffset (cs : List Char) : Option (List Char) :=
  match cs with
  | [] => some []
  | c :: rest =>
    if c = 'Z' ∨ c = 'z' then some rest
    else if c = '+' ∨ c = '-' then do
      let (_, cs) ← twoDigits 0 23 rest
      let cs ← expect ':' cs
      let (_, cs) ← twoDigits 0 59 cs
      return cs
    else some (c :: rest)

/-- Whether a time of day begins here: two digits and a colon. -/
def startsTime (cs : List Char) : Bool :=
  match fixedDigits 2 cs with
  | some (_, ':' :: _) => true
  | _ => false

def startsDate (cs : List Char) : Bool :=
  match fixedDigits 4 cs with
  | some (_, '-' :: _) => true
  | _ => false

def isTimeDelimiter (c : Char) : Bool :=
  c = 'T' || c = 't' || c = ' '

/-- The rest after a date, a time of day, or both with or without an offset. -/
def afterDateTime (cs : List Char) : Option (List Char) :=
  if startsDate cs then do
    let rest ← afterDate cs
    match rest with
    | c :: time =>
      if isTimeDelimiter c && startsTime time then do afterOffset (← afterTime time)
      else some rest
    | [] => some []
  else afterTime cs

def readNumber (cs : List Char) : Option (Value × List Char) :=
  if startsDate cs || startsTime cs then
    (afterDateTime cs).map fun rest =>
      (.time (String.ofList (cs.take (cs.length - rest.length))), rest)
  else
    match cs with
    | '0' :: 'x' :: rest => readBased 16 rest
    | '0' :: 'o' :: rest => readBased 8 rest
    | '0' :: 'b' :: rest => readBased 2 rest
    | _ => (readSpecialFloat cs).or (readDecimal cs)

end HunkReview.Toml
