/-!
# Instants

An instant is a number of seconds since 1970 and nanoseconds within the second. Dates are those
of the proleptic Gregorian calendar, in universal time. A year before 0 or after 9999 is written
with its sign.
-/

namespace HunkReview

structure Nanos where
  val : Nat
  lt_second : val < 1000000000 := by omega
  deriving DecidableEq, Repr

/-- What a number of nanoseconds has beside whole seconds. -/
def Nanos.ofNat (n : Nat) : Nanos where
  val := n % 1000000000
  lt_second := Nat.mod_lt n (by decide)

instance : Coe Nat Nanos := ⟨Nanos.ofNat⟩

@[simp] theorem Nanos.ofNat_val (n : Nanos) : ofNat n.val = n := by
  cases n with
  | mk n within => simp only [ofNat, Nat.mod_eq_of_lt within]

structure Instant where
  seconds : Int := 0
  nanos : Nanos := .ofNat 0
  deriving DecidableEq, Repr

structure Date where
  year : Int
  month : Nat
  day : Nat
  deriving DecidableEq, Repr

/-- The date a number of days after 1970-01-01. Years are counted from March, so that the leap
day is the last of its year, and in eras of 400 years. -/
def Date.ofDays (days : Int) : Date :=
  let shifted := days + 719468
  let era := shifted.fdiv 146097
  let dayOfEra := (shifted.fmod 146097).toNat
  let yearOfEra := (dayOfEra - dayOfEra / 1460 + dayOfEra / 36524 - dayOfEra / 146096) / 365
  let dayOfYear := dayOfEra - (365 * yearOfEra + yearOfEra / 4 - yearOfEra / 100)
  let monthFromMarch := (5 * dayOfYear + 2) / 153
  let day := dayOfYear - (153 * monthFromMarch + 2) / 5 + 1
  let month := if monthFromMarch < 10 then monthFromMarch + 3 else monthFromMarch - 9
  let year := yearOfEra + era * 400
  ⟨if month ≤ 2 then year + 1 else year, month, day⟩

def padZeros (width n : Nat) : String :=
  let digits := toString n
  String.ofList (List.replicate (width - digits.length) '0') ++ digits

def Date.yearText (d : Date) : String :=
  if 0 ≤ d.year ∧ d.year ≤ 9999 then padZeros 4 d.year.toNat
  else if d.year < 0 then "-" ++ padZeros 4 d.year.natAbs
  else "+" ++ padZeros 4 d.year.natAbs

def Date.text (d : Date) : String :=
  d.yearText ++ "-" ++ padZeros 2 d.month ++ "-" ++ padZeros 2 d.day

namespace Instant

def date (t : Instant) : Date :=
  .ofDays (t.seconds.fdiv 86400)

def secondOfDay (t : Instant) : Nat :=
  (t.seconds.fmod 86400).toNat

def clock (t : Instant) : String :=
  padZeros 2 (t.secondOfDay / 3600) ++ ":" ++ padZeros 2 (t.secondOfDay / 60 % 60)

/-- The shortest of no, 3, 6 and 9 digits after the point that loses nothing. -/
def fraction (t : Instant) : String :=
  let n := t.nanos.val
  if n = 0 then ""
  else if n % 1000000 = 0 then "." ++ padZeros 3 (n / 1000000)
  else if n % 1000 = 0 then "." ++ padZeros 6 (n / 1000)
  else "." ++ padZeros 9 n

def stamp (t : Instant) : String :=
  t.date.text ++ "T" ++ t.clock ++ ":" ++ padZeros 2 (t.secondOfDay % 60) ++ t.fraction

def withOffset (t : Instant) : String :=
  t.stamp ++ "+00:00"

def withZone (t : Instant) : String :=
  t.stamp ++ "Z"

def toMinute (t : Instant) : String :=
  t.date.text ++ " " ++ t.clock ++ " UTC"

end Instant

end HunkReview
