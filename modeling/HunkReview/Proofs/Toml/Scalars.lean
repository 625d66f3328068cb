import HunkReview.Proofs.Diff.Header
import HunkReview.Proofs.Toml.Strings
import HunkReview.Toml.Reader

/-! TOML values that end with their line: strings, flags and line numbers as they are written are read as
what they are. -/
namespace HunkReview.Toml

/-- A text that is read as a value when the line ends after it. -/
structure Writes (text : List Char) (v : Value) : Prop where
  reads : ∀ depth rest, readValue depth (text ++ '\n' :: rest) = some (v, '\n' :: rest)
  starts : ∀ c ∈ text.head?, isSpace c = false
  noReturn : '\r' ∉ text

/-! ### Strings and flags -/

theorem exists_head_quote (s : String) :
    ∃ c cs, (quote s).toList = c :: cs ∧ (c = basicQuote ∨ c = literalQuote) := by
  rw [quote, String.toList_ofList]
  cases quoting s.toList with
  | basic | basicBlock => exact ⟨_, _, rfl, .inl rfl⟩
  | literal | literalBlock => exact ⟨_, _, rfl, .inr rfl⟩

theorem writes_quote (s : String) : Writes (quote s).toList (.text s) where
  reads depth rest := by
    have read : readString ((quote s).toList ++ '\n' :: rest) = some (s, '\n' :: rest) :=
      readString_quote s (by simp [basicQuote]) (by simp [literalQuote])
    obtain ⟨c, cs, written, opens⟩ := exists_head_quote s
    rw [written, List.cons_append] at read ⊢
    rw [readValue.eq_def]
    simp only [if_pos opens, read, Option.map_some]
  starts := by
    obtain ⟨c, cs, written, opens⟩ := exists_head_quote s
    rw [written]
    rintro _ ⟨⟩
    rcases opens with rfl | rfl <;> decide
  noReturn := noReturn_quote s

theorem writes_boolean (b : Bool) :
    Writes (if b then "true" else "false").toList (.boolean b) where
  reads depth rest := by
    cases b <;> cases depth <;> rfl
  starts := by cases b <;> simp [isSpace]
  noReturn := by cases b <;> decide

/-! ### Digits up to the end of the line -/

/-- A fixed number of digits ends before the line does. -/
theorem fixedDigits_line {n value : Nat} {ds rest tail : List Char}
    (read : fixedDigits n (ds ++ '\n' :: rest) = some (value, tail)) :
    tail = ds.drop n ++ '\n' :: rest := by
  unfold fixedDigits at read
  dsimp only at read
  split at read
  · next all =>
    cases read
    by_cases short : n ≤ ds.length
    · rw [List.drop_append_of_le_length short]
    · have feed : '\n' ∈ (ds ++ '\n' :: rest).take n := by
        rw [List.take_append, List.take_cons (by omega)]
        simp
      exact absurd (List.all_eq_true.mp all.2 _ feed) (by decide)
  · cases read

section

variable {ds : List Char} (digits : ∀ c ∈ ds, c.isDigit) (rest : List Char)
include digits

/-- After some digits of the line comes a digit or its end. -/
theorem not_mark_after_digits {mark : Char} (noDigit : mark.isDigit = false) (noFeed : mark ≠ '\n')
    (n : Nat) (more : List Char) : ds.drop n ++ '\n' :: rest ≠ mark :: more := by
  intro next
  cases left : ds.drop n with
  | nil =>
    rw [left] at next
    exact noFeed (List.cons.inj next).1.symm
  | cons d tail =>
    rw [left] at next
    have digit : d.isDigit := digits d (List.mem_of_mem_drop (left ▸ List.mem_cons_self))
    rw [(List.cons.inj next).1, noDigit] at digit
    cases digit

theorem startsDate_line : startsDate (ds ++ '\n' :: rest) = false := by
  unfold startsDate
  split
  · next tail read =>
    exact absurd (fixedDigits_line read).symm
      (not_mark_after_digits digits rest (by decide) (by decide) 4 tail)
  · rfl

theorem startsTime_line : startsTime (ds ++ '\n' :: rest) = false := by
  unfold startsTime
  split
  · next tail read =>
    exact absurd (fixedDigits_line read).symm
      (not_mark_after_digits digits rest (by decide) (by decide) 2 tail)
  · rfl

theorem moreDigits_line : moreDigits Char.isDigit (ds ++ '\n' :: rest) = some (ds, '\n' :: rest) := by
  induction ds with
  | nil =>
    rw [List.nil_append, moreDigits.eq_def]
    simp
  | cons d ds ih =>
    obtain ⟨digit, later⟩ := List.forall_mem_cons.mp digits
    rw [List.cons_append, moreDigits.eq_def]
    simp [digit, ih later, prepend]

/-- Decimal digits have their usual value. -/
theorem ofDigits_ten : ofDigits 10 ds = Nat.ofDigitChars 10 ds 0 := by
  refine List.foldl_ext _ _ 0 fun n c member => ?_
  rw [hexDigit?, if_pos (digits c member)]
  rfl

end

/-! ### Numbers -/

/-- The first digit of a number above zero is no zero. -/
theorem head?_toDigits {n : Nat} (positive : 0 < n) : (Nat.toDigits 10 n).head? ≠ some '0' := by
  induction n using Nat.strongRecOn with
  | ind n ih =>
    rw [Nat.toDigits_eq_if (by decide)]
    split
    · next below =>
      have small : ∀ d : Fin 10, 0 < d.val → some (Nat.digitChar d) ≠ some '0' := by decide
      exact small ⟨n, below⟩ positive
    · next above =>
      rw [List.head?_append_of_ne_nil _ Nat.toDigits_ne_nil]
      exact ih (n / 10) (by omega) (by omega)

theorem wholeDigits_line (n : Nat) (rest : List Char) :
    wholeDigits (Nat.toDigits 10 n ++ '\n' :: rest) = some (Nat.toDigits 10 n, '\n' :: rest) := by
  rcases Nat.eq_zero_or_pos n with rfl | positive
  · rfl
  · have digits : ∀ c ∈ Nat.toDigits 10 n, c.isDigit := fun _ => Text.isDigit_of_mem_toDigits
    have first := head?_toDigits positive
    cases written : Nat.toDigits 10 n with
    | nil => exact absurd written Nat.toDigits_ne_nil
    | cons d ds =>
      rw [written] at digits first
      obtain ⟨digit, later⟩ := List.forall_mem_cons.mp digits
      have noZero : d ≠ '0' := fun zero => first (congrArg some zero)
      rw [List.cons_append, wholeDigits.eq_def]
      split
      · next same => exact absurd (List.cons.inj same).1 noZero
      · rw [someDigits, if_pos digit, moreDigits_line later]
        rfl

theorem exists_head_toDigits (n : Nat) : ∃ d ds, Nat.toDigits 10 n = d :: ds ∧ d.isDigit := by
  obtain ⟨d, ds, written⟩ := List.exists_cons_of_ne_nil (Nat.toDigits_ne_nil (n := n) (b := 10))
  exact ⟨d, ds, written, Text.isDigit_of_mem_toDigits (written ▸ List.mem_cons_self)⟩

/-- Characters of different kinds are different. -/
theorem ne_of_kind {kind : Char → Bool} {c d : Char} (holds : kind c) (fails : kind d = false) :
    c ≠ d := by
  rintro rfl
  rw [holds] at fails
  cases fails

theorem readSign_of_isDigit {c : Char} (digit : c.isDigit) (rest : List Char) :
    readSign (c :: rest) = (false, c :: rest) := by
  rw [readSign.eq_def]
  split
  · next same => exact absurd (List.cons.inj same).1 (ne_of_kind digit (by decide))
  · next same => exact absurd (List.cons.inj same).1 (ne_of_kind digit (by decide))
  · rfl

theorem readSpecialFloat_of_isDigit {c : Char} (digit : c.isDigit) (rest : List Char) :
    readSpecialFloat (c :: rest) = none := by
  have noI : 'i' ≠ c := (ne_of_kind digit (by decide)).symm
  have noN : 'n' ≠ c := (ne_of_kind digit (by decide)).symm
  simp [readSpecialFloat, readSign_of_isDigit digit, readWord, Text.stripStart?, noI, noN]

theorem readDecimal_line {n : Nat} (fits : n ≤ 4294967295) (rest : List Char) :
    readDecimal (Nat.toDigits 10 n ++ '\n' :: rest) = some (.integer n, '\n' :: rest) := by
  have unsigned : readSign (Nat.toDigits 10 n ++ '\n' :: rest) =
      (false, Nat.toDigits 10 n ++ '\n' :: rest) := by
    obtain ⟨d, ds, written, digit⟩ := exists_head_toDigits n
    rw [written]
    exact readSign_of_isDigit digit _
  have value : ofDigits 10 (Nat.toDigits 10 n) = n := by
    rw [ofDigits_ten fun _ => Text.isDigit_of_mem_toDigits, Nat.ofDigitChars_ten_toDigits]
  have inRange : integer? n = some (.integer n) := if_pos (by omega)
  simp [readDecimal, unsigned, wholeDigits_line, startsExponent, value, inRange]

theorem readNumber_line {n : Nat} (fits : n ≤ 4294967295) (rest : List Char) :
    readNumber (Nat.toDigits 10 n ++ '\n' :: rest) = some (.integer n, '\n' :: rest) := by
  have digits : ∀ c ∈ Nat.toDigits 10 n, c.isDigit := fun _ => Text.isDigit_of_mem_toDigits
  have decimal := readDecimal_line fits rest
  have special : readSpecialFloat (Nat.toDigits 10 n ++ '\n' :: rest) = none := by
    obtain ⟨d, ds, written, digit⟩ := exists_head_toDigits n
    rw [written]
    exact readSpecialFloat_of_isDigit digit _
  have based {mark : Char} {more : List Char} (noDigit : mark.isDigit = false)
      (noFeed : mark ≠ '\n') : Nat.toDigits 10 n ++ '\n' :: rest ≠ '0' :: mark :: more := by
    intro split
    have next : (Nat.toDigits 10 n).drop 1 ++ '\n' :: rest = mark :: more := by
      rw [← List.drop_append_of_le_length Nat.length_toDigits_pos, split]
      rfl
    exact not_mark_after_digits digits rest noDigit noFeed 1 more next
  rw [readNumber.eq_def, startsDate_line digits, startsTime_line digits, if_neg (by decide)]
  split
  · next split => exact absurd split (based (by decide) (by decide))
  · next split => exact absurd split (based (by decide) (by decide))
  · next split => exact absurd split (based (by decide) (by decide))
  · rw [special, decimal]
    rfl

/-- No value but a number begins with a digit. -/
theorem readValue_of_isDigit {c : Char} (digit : c.isDigit) (depth : Nat) (rest : List Char) :
    readValue depth (c :: rest) = readNumber (c :: rest) := by
  have other {d : Char} (noDigit : d.isDigit = false) : c ≠ d := ne_of_kind digit noDigit
  rw [readValue.eq_def]
  simp only [other (d := basicQuote) (by decide), other (d := literalQuote) (by decide),
    other (d := '[') (by decide), other (d := '\x7b') (by decide), other (d := 't') (by decide),
    other (d := 'f') (by decide), or_self, if_false]

theorem writes_lineNo (n : LineNo) : Writes n.render.toList (.integer n.val) where
  reads depth rest := by
    have read := readNumber_line n.le_max rest
    obtain ⟨d, ds, written, digit⟩ := exists_head_toDigits n.val
    rw [written, List.cons_append] at read
    rw [LineNo.toList_render, written, List.cons_append, readValue_of_isDigit digit, read]
  starts := by
    obtain ⟨d, ds, written, digit⟩ := exists_head_toDigits n.val
    rw [LineNo.toList_render, written]
    rintro _ ⟨⟩
    simp [isSpace, ne_of_kind digit (d := ' ') (by decide),
      ne_of_kind digit (d := '\t') (by decide)]
  noReturn member := by
    rw [LineNo.toList_render] at member
    exact absurd (Text.isDigit_of_mem_toDigits member) (by decide)

end HunkReview.Toml
