import HunkReview.Proofs.Text.Digits
import Mathlib.Tactic.IntervalCases

/-! Timestamps read back. A date's day number is found again from its year, month and day, and an
instant from the text that has its date, its time of day and its fraction of a second. -/
namespace HunkReview

/-! ### Dates -/

def Date.days (d : Date) : Int :=
  let year := if d.month ≤ 2 then d.year - 1 else d.year
  let monthFromMarch := if d.month ≤ 2 then d.month + 9 else d.month - 3
  let yearOfEra := (year.fmod 400).toNat
  let dayOfYear := (153 * monthFromMarch + 2) / 5 + d.day - 1
  year.fdiv 400 * 146097 + (365 * yearOfEra + yearOfEra / 4 - yearOfEra / 100 + dayOfYear : Nat) - 719468

/-- In an era of 400 years, the year of a day begins on the day or at most 365 days before. -/
theorem year_of_era {day : Nat} (inside : day < 146097) {year : Nat}
    (of : (day - day / 1460 + day / 36524 - day / 146096) / 365 = year) :
    year < 400 ∧ 365 * year + year / 4 - year / 100 ≤ day ∧
      day - (365 * year + year / 4 - year / 100) ≤ 365 := by
  have bound : year < 400 := by omega
  refine ⟨bound, ?_⟩
  -- years and days begin a century together, but for the last day of the era
  have century : year / 100 = day / 36524 ∨ day = 146096 := by
    have few : year / 100 ≤ 3 := by omega
    interval_cases century : year / 100 <;> omega
  rcases century with same | rfl
  · have few : day / 36524 ≤ 4 := by omega
    interval_cases century : day / 36524 <;> omega
  · omega

/-- A date's day in its era, its year and its month, both counted from March. -/
theorem Date.exists_parts (days : Int) : ∃ (era : Int) (day year dayOfYear month : Nat),
    days = era * 146097 + day - 719468 ∧ day < 146097 ∧
      (day - day / 1460 + day / 36524 - day / 146096) / 365 = year ∧
      day - (365 * year + year / 4 - year / 100) = dayOfYear ∧ (5 * dayOfYear + 2) / 153 = month ∧
      ofDays days =
        ⟨if (if month < 10 then month + 3 else month - 9) ≤ 2 then year + era * 400 + 1
          else year + era * 400,
          if month < 10 then month + 3 else month - 9, dayOfYear - (153 * month + 2) / 5 + 1⟩ := by
  have split := Int.mul_fdiv_add_fmod (days + 719468) 146097
  have low : 0 ≤ (days + 719468).fmod 146097 := Int.fmod_nonneg_of_pos _ (by decide)
  have high := Int.fmod_lt_of_pos (days + 719468) (show (0 : Int) < 146097 by decide)
  exact ⟨_, ((days + 719468).fmod 146097).toNat, _, _, _, by omega, by omega, rfl, rfl, rfl, rfl⟩

theorem Date.days_ofDays (days : Int) : (Date.ofDays days).days = days := by
  obtain ⟨era, day, year, dayOfYear, month, whole, inside, ofYear, rest, ofMonth, date⟩ :=
    Date.exists_parts days
  obtain ⟨bound, begun, early⟩ := year_of_era inside ofYear
  have back (y : Int) (same : y = year + era * 400) : y.fdiv 400 = era ∧ (y.fmod 400).toNat = year := by
    subst same
    rw [Int.fdiv_eq_ediv_of_nonneg _ (by decide), Int.fmod_eq_emod_of_nonneg _ (by decide)]
    omega
  rw [date, Date.days]
  by_cases early : month < 10
  · obtain ⟨sameEra, sameYear⟩ := back _ rfl
    have : ¬ month + 3 ≤ 2 := by omega
    simp only [if_pos early, if_neg this, sameEra, sameYear]
    omega
  · obtain ⟨sameEra, sameYear⟩ := back (year + era * 400 + 1 - 1) (by omega)
    have : month - 9 ≤ 2 := by omega
    simp only [if_neg early, if_pos this, sameEra, sameYear]
    omega
/-! ### Reading a timestamp -/

def readYear? : List Char → Option (Int × List Char)
  | '-' :: cs => (Text.readUpTo? '-' cs).map fun (n, rest) => (-(n : Int), rest)
  | '+' :: cs => (Text.readUpTo? '-' cs).map fun (n, rest) => ((n : Int), rest)
  | cs => (Text.readUpTo? '-' cs).map fun (n, rest) => ((n : Int), rest)

/-- The nanoseconds of a fraction up to the zone letter. The digits stand for the first of nine. -/
def readFraction? : List Char → Option Nat
  | ['Z'] => some 0
  | '.' :: cs =>
    let digits := cs.takeWhile Char.isDigit
    if cs = digits ++ ['Z'] then some (Nat.ofDigitChars 10 digits 0 * 10 ^ (9 - digits.length))
    else none
  | _ => none

/-- Read `YYYY-MM-DDTHH:MM:SS`, a fraction and the zone letter. -/
def Instant.ofText? (cs : List Char) : Option Instant := do
  let (year, cs) ← readYear? cs
  let (month, cs) ← Text.readUpTo? '-' cs
  let (day, cs) ← Text.readUpTo? 'T' cs
  let (hour, cs) ← Text.readUpTo? ':' cs
  let (minute, cs) ← Text.readUpTo? ':' cs
  let (second, cs) ← Text.readNat? cs
  let nanos ← readFraction? cs
  some ⟨Date.days ⟨year, month, day⟩ * 86400 + (hour * 3600 + minute * 60 + second : Nat),
    .ofNat nanos⟩

theorem readYear?_digit {c : Char} (digit : c.isDigit) (cs : List Char) :
    readYear? (c :: cs) =
      (Text.readUpTo? '-' (c :: cs)).map fun (n, rest) => ((n : Int), rest) := by
  unfold readYear?
  split
  next => simp_all
  next => simp_all
  next => rfl

theorem readYear?_yearText (d : Date) (rest : List Char) :
    readYear? (d.yearText.toList ++ '-' :: rest) = some (d.year, rest) := by
  have read (n : Nat) := Text.readUpTo?_padZeros 4 n (show '-'.isDigit = false by decide) rest
  unfold Date.yearText
  split
  next plain =>
    obtain ⟨c, cs, digits⟩ := List.exists_cons_of_ne_nil (Text.padZeros_ne_nil 4 d.year.toNat)
    have digit : c.isDigit := Text.padZeros_digits (digits ▸ List.mem_cons_self)
    have found := read d.year.toNat
    rw [digits, List.cons_append] at found
    rw [digits, List.cons_append, readYear?_digit digit, found, Option.map_some]
    simp [plain.1]
  next =>
    split
    next negative =>
      have shape : ("-" ++ padZeros 4 d.year.natAbs).toList =
          '-' :: (padZeros 4 d.year.natAbs).toList := String.toList_append
      rw [shape, List.cons_append, readYear?, read, Option.map_some]
      simp only [Option.some.injEq, Prod.mk.injEq, and_true]
      omega
    next =>
      have shape : ("+" ++ padZeros 4 d.year.natAbs).toList =
          '+' :: (padZeros 4 d.year.natAbs).toList := String.toList_append
      rw [shape, List.cons_append, readYear?, read, Option.map_some]
      simp only [Option.some.injEq, Prod.mk.injEq, and_true]
      omega

/-- A fraction of a given number of digits counts in units of the last one. -/
theorem readFraction?_padZeros {width n : Nat} (positive : 0 < width) (fits : n < 10 ^ width) :
    readFraction? ('.' :: (padZeros width n).toList ++ ['Z']) = some (n * 10 ^ (9 - width)) := by
  have digits : ((padZeros width n).toList ++ ['Z']).takeWhile Char.isDigit =
      (padZeros width n).toList := by
    rw [List.takeWhile_append_of_pos fun _ => Text.padZeros_digits]
    exact List.append_nil _
  rw [List.cons_append, readFraction?]
  simp only [digits, if_true, Text.ofDigitChars_padZeros, Text.length_padZeros positive fits]

theorem Instant.readFraction?_fraction (t : Instant) :
    readFraction? (t.fraction.toList ++ ['Z']) = some t.nanos.val := by
  have within := t.nanos.lt_second
  have dotted (width n : Nat) :
      ("." ++ padZeros width n).toList = '.' :: (padZeros width n).toList := String.toList_append
  unfold fraction
  dsimp only
  split
  next none => rw [none]; rfl
  next =>
    split
    next whole =>
      rw [dotted, readFraction?_padZeros (by decide) (by omega)]
      exact congrArg some (by omega)
    next =>
      split
      next whole =>
        rw [dotted, readFraction?_padZeros (by decide) (by omega)]
        exact congrArg some (by omega)
      next =>
        rw [dotted, readFraction?_padZeros (by decide) (by omega)]
        exact congrArg some (by omega)

/-- A fraction starts with its point, and without one the zone letter follows. -/
theorem Instant.noDigit_fraction (t : Instant) : Text.NoDigitNext (t.fraction.toList ++ ['Z']) := by
  have dotted (digits : String) : Text.NoDigitNext (("." ++ digits).toList ++ ['Z']) := by
    have shape : ("." ++ digits).toList = '.' :: digits.toList := String.toList_append
    intro c first
    rw [shape] at first
    exact Option.some.inj first ▸ rfl
  unfold fraction
  dsimp only
  split
  next => exact fun c first => Option.some.inj first ▸ rfl
  next =>
    split
    next => exact dotted _
    next => split <;> exact dotted _

theorem Instant.toList_withZone (t : Instant) : t.withZone.toList =
    t.date.yearText.toList ++ '-' :: ((padZeros 2 t.date.month).toList ++ '-' ::
      ((padZeros 2 t.date.day).toList ++ 'T' :: ((padZeros 2 (t.secondOfDay / 3600)).toList ++ ':' ::
        ((padZeros 2 (t.secondOfDay / 60 % 60)).toList ++ ':' ::
          ((padZeros 2 (t.secondOfDay % 60)).toList ++ (t.fraction.toList ++ ['Z'])))))) := by
  have dash : "-".toList = ['-'] := by decide
  have time : "T".toList = ['T'] := by decide
  have colon : ":".toList = [':'] := by decide
  have zone : "Z".toList = ['Z'] := by decide
  simp only [withZone, stamp, clock, Date.text, String.toList_append, List.append_assoc, dash, time,
    colon, zone, List.cons_append, List.nil_append]

/-- A timestamp is read back as its instant. -/
theorem Instant.ofText?_withZone (t : Instant) : ofText? t.withZone.toList = some t := by
  have split := Int.mul_fdiv_add_fmod t.seconds 86400
  have low : 0 ≤ t.seconds.fmod 86400 := Int.fmod_nonneg_of_pos _ (by decide)
  have days : Date.days ⟨t.date.year, t.date.month, t.date.day⟩ = t.seconds.fdiv 86400 :=
    Date.days_ofDays _
  rw [toList_withZone, ofText?]
  simp only [readYear?_yearText, Option.bind_eq_bind, Option.bind_some,
    Text.readUpTo?_padZeros _ _ (show '-'.isDigit = false by decide),
    Text.readUpTo?_padZeros _ _ (show 'T'.isDigit = false by decide),
    Text.readUpTo?_padZeros _ _ (show ':'.isDigit = false by decide),
    Text.readNat?_padZeros _ _ t.noDigit_fraction, t.readFraction?_fraction, days]
  have seconds : t.seconds.fdiv 86400 * 86400 + ((t.secondOfDay / 3600 * 3600 +
      t.secondOfDay / 60 % 60 * 60 + t.secondOfDay % 60 : Nat) : Int) = t.seconds := by
    unfold secondOfDay
    omega
  rw [seconds, Nanos.ofNat_val]

example : Instant.ofText? "1969-12-31T23:59:59.500Z".toList = some ⟨-1, .ofNat 500000000⟩ := by
  decide +kernel

end HunkReview
