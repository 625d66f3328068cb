import HunkReview.Proofs.Export.JsonText

/-! A reader for the texts of JSON values. It gives back the value of every text in the grammar, so
a text has one value at most, and what is printed of a value is read as that value. -/
namespace HunkReview.Json

/-! ### The reader -/

def skipBlank (cs : List Char) : List Char :=
  cs.dropWhile isBlank

def readChar? : List Char → Option (Char × List Char)
  | '\\' :: 'u' :: a :: b :: c :: d :: rest => do
    let n ← Text.readHex? [a, b, c, d]
    if (Char.ofNat n).toNat = n then some (Char.ofNat n, rest) else none
  | '\\' :: letter :: rest => (shortEscape? letter).map (·, rest)
  | c :: rest => if 0x20 ≤ c.toNat then some (c, rest) else none
  | [] => none

def readChars? : Nat → List Char → Option (List Char × List Char)
  | _, '"' :: rest => some ([], rest)
  | 0, _ => none
  | fuel + 1, cs => do
    let (c, rest) ← readChar? cs
    let (others, rest) ← readChars? fuel rest
    some (c :: others, rest)

def readText? (cs : List Char) : Option (String × List Char) :=
  (readChars? cs.length cs).map fun (s, rest) => (String.ofList s, skipBlank rest)

def readKey? : List Char → Option (String × List Char)
  | '"' :: cs =>
    match readText? cs with
    | some (name, ':' :: rest) => some (name, skipBlank rest)
    | _ => none
  | _ => none

mutual

/-- A value and the blanks after it. -/
def readValue? : Nat → List Char → Option (Json × List Char)
  | 0, _ => none
  | fuel + 1, cs =>
    match cs with
    | '"' :: rest => (readText? rest).map fun (s, rest) => (.text s, rest)
    | '[' :: rest =>
      match skipBlank rest with
      | ']' :: rest => some (.array [], skipBlank rest)
      | rest => (readItems? fuel rest).map fun (js, rest) => (.array js, rest)
    | '\x7b' :: rest =>
      match skipBlank rest with
      | '\x7d' :: rest => some (.object [], skipBlank rest)
      | rest => (readFields? fuel rest).map fun (fs, rest) => (.object fs, rest)
    | 'n' :: 'u' :: 'l' :: 'l' :: rest => some (.null, skipBlank rest)
    | cs => (Text.readNat? cs).map fun (n, rest) => (.number n, skipBlank rest)

def readItems? : Nat → List Char → Option (List Json × List Char)
  | 0, _ => none
  | fuel + 1, cs =>
    match readValue? fuel cs with
    | some (j, ',' :: rest) =>
      (readItems? fuel (skipBlank rest)).map fun (js, rest) => (j :: js, rest)
    | some (j, ']' :: rest) => some ([j], skipBlank rest)
    | _ => none

def readFields? : Nat → List Char → Option (List (String × Json) × List Char)
  | 0, _ => none
  | fuel + 1, cs => do
    let (name, cs) ← readKey? cs
    match readValue? fuel cs with
    | some (j, ',' :: rest) =>
      (readFields? fuel (skipBlank rest)).map fun (fs, rest) => ((name, j) :: fs, rest)
    | some (j, '\x7d' :: rest) => some ([(name, j)], skipBlank rest)
    | _ => none

end

def read? (cs : List Char) : Option Json :=
  match readValue? cs.length (skipBlank cs) with
  | some (j, []) => some j
  | _ => none

/-! ### Blanks and strings -/

theorem skipBlank_of_blank {blank : List Char} (blanks : ∀ c ∈ blank, isBlank c)
    (rest : List Char) : skipBlank (blank ++ rest) = skipBlank rest :=
  List.dropWhile_append_of_pos blanks

theorem readChar?_of_writes {c : Char} {written : List Char} (writes : WritesChar c written)
    (rest : List Char) : readChar? (written ++ rest) = some (c, rest) := by
  cases writes with
  | plain printable _ noEscape => simp [readChar?, noEscape, printable]
  | @short letter escape =>
    have other : letter ≠ 'u' := by
      rintro rfl
      exact absurd escape (by simp [shortEscape?])
    simp [readChar?, other, escape]
  | @numbered digits four number =>
    match digits, four with
    | [a, b, c, d], _ => simp [readChar?, number, Char.ofNat_toNat]

theorem readChars?_succ {d : Char} (other : d ≠ '"') (fuel : Nat) (cs : List Char) :
    readChars? (fuel + 1) (d :: cs) =
      (readChar? (d :: cs)).bind fun (c, rest) =>
        (readChars? fuel rest).bind fun (others, rest) => some (c :: others, rest) := by
  simp [readChars?, other]

theorem head_of_writesChar {c : Char} {written : List Char} (writes : WritesChar c written) :
    ∃ d tail, written = d :: tail ∧ d ≠ '"' := by
  cases writes with
  | plain _ noQuote => exact ⟨_, _, rfl, noQuote⟩
  | short => exact ⟨_, _, rfl, by decide⟩
  | numbered => exact ⟨_, _, rfl, by decide⟩

theorem readChars?_of_writes {cs written : List Char} (writes : WritesChars cs written)
    (rest : List Char) {fuel : Nat} (enough : written.length ≤ fuel) :
    readChars? fuel (written ++ '"' :: rest) = some (cs, rest) := by
  induction writes generalizing fuel with
  | nil => unfold readChars?; rfl
  | @cons c cs first others firstWrites othersWrite ih =>
    obtain ⟨d, tail, rfl, other⟩ := head_of_writesChar firstWrites
    rw [List.length_append, List.length_cons] at enough
    obtain ⟨fuel, rfl⟩ := Nat.exists_eq_succ_of_ne_zero (n := fuel) (by omega)
    have head := readChar?_of_writes firstWrites (others ++ '"' :: rest)
    have below : readChars? fuel (others ++ '"' :: rest) = some (cs, rest) := ih (by omega)
    rw [List.append_assoc, List.cons_append, readChars?_succ other, ← List.cons_append, head]
    simp only [Option.bind_some, below]

theorem readText?_of_quotes {s : String} {cs : List Char} (quoted : Quotes s cs)
    (rest : List Char) : ∃ inside, cs ++ rest = '"' :: inside ∧
      readText? inside = some (s, skipBlank rest) := by
  obtain ⟨body, writes, rfl⟩ := quoted
  refine ⟨body ++ '"' :: rest, by simp, ?_⟩
  rw [readText?, readChars?_of_writes writes rest (by simp)]
  simp only [Option.map_some, String.ofList_toList]

/-! ### Values -/

/-- The text has a character that is no blank, and the first such does not close a bracket. -/
def Opens (cs : List Char) : Prop :=
  ∃ c tail, skipBlank cs = c :: tail ∧ c ≠ ']' ∧ c ≠ '\x7d'

/-- What may follow a value and its blanks. -/
def Stops (rest : List Char) : Prop :=
  skipBlank rest = rest ∧ Text.NoDigitNext rest

theorem skipBlank_append {cs tail : List Char} {c : Char} (first : skipBlank cs = c :: tail)
    (rest : List Char) : skipBlank (cs ++ rest) = c :: (tail ++ rest) := by
  rw [skipBlank] at first
  rw [skipBlank, List.dropWhile_append, first]
  rfl

theorem Opens.append {cs : List Char} (opens : Opens cs) (rest : List Char) : Opens (cs ++ rest) := by
  obtain ⟨c, tail, first, noBracket⟩ := opens
  exact ⟨c, tail ++ rest, skipBlank_append first rest, noBracket⟩

theorem Opens.padded {inner cs : List Char} (opens : Opens inner) (padded : Padded inner cs) :
    Opens cs := by
  obtain ⟨before, after, blank, -, rfl⟩ := padded
  obtain ⟨c, tail, first, noBracket⟩ := opens.append after
  exact ⟨c, tail, (skipBlank_of_blank blank _).trans first, noBracket⟩

theorem opens_of_quotes {s : String} {cs : List Char} (quoted : Quotes s cs) : Opens cs := by
  obtain ⟨body, -, rfl⟩ := quoted
  exact ⟨_, _, rfl, by decide⟩

theorem isBlank_digit {c : Char} (digit : c.isDigit) : isBlank c = false := by
  rw [Bool.eq_false_iff]
  intro blank
  simp only [isBlank, Bool.or_eq_true, beq_iff_eq] at blank
  rcases blank with ((rfl | rfl) | rfl) | rfl <;> exact absurd digit (by decide)

theorem skipBlank_digit {c : Char} (digit : c.isDigit) (cs : List Char) :
    skipBlank (c :: cs) = c :: cs :=
  List.dropWhile_cons_of_neg (by simp [isBlank_digit digit])

theorem opens_of_digit {c : Char} (digit : c.isDigit) (cs : List Char) : Opens (c :: cs) := by
  refine ⟨c, cs, skipBlank_digit digit cs, ?_, ?_⟩
  · rintro rfl
    exact absurd digit (by decide)
  · rintro rfl
    exact absurd digit (by decide)

/-- A number's digits are not empty. -/
theorem exists_digits (n : Nat) : ∃ c cs, Nat.toDigits 10 n = c :: cs ∧ c.isDigit := by
  obtain ⟨c, cs, digits⟩ := List.exists_cons_of_ne_nil (Nat.toDigits_ne_nil (b := 10) (n := n))
  have member : c ∈ Nat.toDigits 10 n := digits ▸ List.mem_cons_self
  exact ⟨c, cs, digits, Text.isDigit_of_mem_toDigits member⟩

theorem Written.opens {p : Phrase} {cs : List Char} (written : Written p cs) : Opens cs := by
  induction written with
  | null => exact ⟨_, _, rfl, by decide⟩
  | number n =>
    obtain ⟨c, cs, digits, digit⟩ := exists_digits n
    exact digits ▸ opens_of_digit digit cs
  | text quoted => exact opens_of_quotes quoted
  | emptyArray | array | emptyObject | object => exact ⟨_, _, rfl, by decide⟩
  | element _ padded ih => exact ih.padded padded
  | lastItem _ ih | lastField _ ih => exact ih
  | item _ _ ih _ | fields _ _ ih _ => exact ih.append _
  | field quoted padded => exact ((opens_of_quotes quoted).padded padded).append _

/-- A value begins with no blank. -/
theorem Written.skipBlank_value {j : Json} {cs : List Char} (written : Written (.value j) cs) :
    skipBlank cs = cs := by
  cases written with
  | null | emptyArray | array | emptyObject | object => rfl
  | number n =>
    obtain ⟨c, cs, digits, digit⟩ := exists_digits n
    exact digits ▸ skipBlank_digit digit cs
  | text quoted =>
    obtain ⟨body, -, rfl⟩ := quoted
    rfl

/-- What the reader makes of a stretch of text, whatever follows it. -/
def Reads : Phrase → List Char → Prop
  | .value j, cs => ∀ fuel rest, cs.length ≤ fuel → Text.NoDigitNext rest →
    readValue? fuel (cs ++ rest) = some (j, skipBlank rest)
  | .element j, cs => ∀ fuel rest, cs.length ≤ fuel → Stops rest →
    readValue? fuel (skipBlank (cs ++ rest)) = some (j, rest)
  | .items js, cs => ∀ fuel rest, cs.length < fuel →
    readItems? fuel (skipBlank (cs ++ ']' :: rest)) = some (js, skipBlank rest)
  | .field name j, cs => ∀ fuel rest, cs.length ≤ fuel → Stops rest →
    ∃ tail, readKey? (skipBlank (cs ++ rest)) = some (name, tail) ∧
      readValue? fuel tail = some (j, rest)
  | .fields fs, cs => ∀ fuel rest, cs.length < fuel →
    readFields? fuel (skipBlank (cs ++ '\x7d' :: rest)) = some (fs, skipBlank rest)

theorem noDigitNext_cons {c : Char} (other : c.isDigit = false) (rest : List Char) :
    Text.NoDigitNext (c :: rest) := by
  intro d first
  exact Option.some.inj first ▸ other

theorem stops_cons {c : Char} (noBlank : isBlank c = false) (other : c.isDigit = false)
    (rest : List Char) : Stops (c :: rest) :=
  ⟨List.dropWhile_cons_of_neg (by simp [noBlank]), noDigitNext_cons other rest⟩

theorem noDigitNext_append {blank rest : List Char} (blanks : ∀ c ∈ blank, isBlank c)
    (stop : Text.NoDigitNext rest) : Text.NoDigitNext (blank ++ rest) := by
  cases blank with
  | nil => exact stop
  | cons c cs =>
    refine noDigitNext_cons (Bool.eq_false_iff.mpr fun digit => ?_) _
    exact absurd (blanks c List.mem_cons_self) (by simp [isBlank_digit digit])

theorem readValue?_digit {c : Char} (digit : c.isDigit) (fuel : Nat) (cs : List Char) :
    readValue? (fuel + 1) (c :: cs) =
      (Text.readNat? (c :: cs)).map fun (n, rest) => (.number n, skipBlank rest) := by
  unfold readValue?
  split
  next => exact absurd digit (by simp_all)
  next => exact absurd digit (by simp_all)
  next => exact absurd digit (by simp_all)
  next => exact absurd digit (by simp_all)
  next => rfl

theorem reads_number (n : Nat) : Reads (.value (.number n)) (Nat.toDigits 10 n) := by
  intro fuel rest enough stop
  obtain ⟨c, cs, digits, digit⟩ := exists_digits n
  have read := Text.readNat?_toDigits n stop
  rw [digits, List.length_cons] at enough
  obtain ⟨fuel, rfl⟩ := Nat.exists_eq_succ_of_ne_zero (n := fuel) (by omega)
  rw [digits] at read ⊢
  rw [List.cons_append, readValue?_digit digit, ← List.cons_append, read]
  rfl

theorem reads_text {s : String} {cs : List Char} (quoted : Quotes s cs) :
    Reads (.value (.text s)) cs := by
  intro fuel rest enough _
  have positive : 0 < cs.length := by
    obtain ⟨body, -, rfl⟩ := quoted
    exact Nat.succ_pos _
  obtain ⟨fuel, rfl⟩ := Nat.exists_eq_succ_of_ne_zero (n := fuel) (by omega)
  obtain ⟨inside, shape, read⟩ := readText?_of_quotes quoted rest
  rw [shape, readValue?, read]
  rfl

theorem reads_null : Reads (.value .null) ['n', 'u', 'l', 'l'] := by
  intro fuel rest enough _
  obtain ⟨fuel, rfl⟩ := Nat.exists_eq_succ_of_ne_zero (n := fuel) (by simp at enough; omega)
  rfl

theorem readValue?_array {inside tail : List Char} {c : Char} (first : skipBlank inside = c :: tail)
    (noBracket : c ≠ ']') (fuel : Nat) :
    readValue? (fuel + 1) ('[' :: inside) =
      (readItems? fuel (skipBlank inside)).map fun (js, rest) => (.array js, rest) := by
  rw [readValue?, first]
  split
  next same => exact absurd (List.cons.inj same).1 noBracket
  next => rfl

theorem readValue?_object {inside tail : List Char} {c : Char}
    (first : skipBlank inside = c :: tail) (noBrace : c ≠ '\x7d') (fuel : Nat) :
    readValue? (fuel + 1) ('\x7b' :: inside) =
      (readFields? fuel (skipBlank inside)).map fun (fs, rest) => (.object fs, rest) := by
  rw [readValue?, first]
  split
  next same => exact absurd (List.cons.inj same).1 noBrace
  next => rfl

theorem reads_array {js : List Json} {cs : List Char} (opens : Opens cs)
    (inside : Reads (.items js) cs) : Reads (.value (.array js)) ('[' :: (cs ++ [']'])) := by
  intro fuel rest enough _
  rw [List.length_cons, List.length_append, List.length_singleton] at enough
  obtain ⟨fuel, rfl⟩ := Nat.exists_eq_succ_of_ne_zero (n := fuel) (by omega)
  obtain ⟨c, tail, first, noBracket, -⟩ := opens
  have read := inside fuel rest (by omega)
  rw [List.cons_append, List.append_assoc, List.singleton_append,
    readValue?_array (skipBlank_append first _) noBracket, read]
  rfl

theorem reads_object {fs : List (String × Json)} {cs : List Char} (opens : Opens cs)
    (inside : Reads (.fields fs) cs) : Reads (.value (.object fs)) ('\x7b' :: (cs ++ ['\x7d'])) := by
  intro fuel rest enough _
  rw [List.length_cons, List.length_append, List.length_singleton] at enough
  obtain ⟨fuel, rfl⟩ := Nat.exists_eq_succ_of_ne_zero (n := fuel) (by omega)
  obtain ⟨c, tail, first, -, noBrace⟩ := opens
  have read := inside fuel rest (by omega)
  rw [List.cons_append, List.append_assoc, List.singleton_append,
    readValue?_object (skipBlank_append first _) noBrace, read]
  rfl

theorem reads_emptyArray {cs : List Char} (blank : ∀ c ∈ cs, isBlank c) :
    Reads (.value (.array [])) ('[' :: (cs ++ [']'])) := by
  intro fuel rest enough _
  obtain ⟨fuel, rfl⟩ := Nat.exists_eq_succ_of_ne_zero (n := fuel) (by simp at enough; omega)
  have closed : skipBlank (cs ++ ']' :: rest) = ']' :: rest := skipBlank_of_blank blank _
  rw [List.cons_append, List.append_assoc, List.singleton_append, readValue?, closed]
  rfl

theorem reads_emptyObject {cs : List Char} (blank : ∀ c ∈ cs, isBlank c) :
    Reads (.value (.object [])) ('\x7b' :: (cs ++ ['\x7d'])) := by
  intro fuel rest enough _
  obtain ⟨fuel, rfl⟩ := Nat.exists_eq_succ_of_ne_zero (n := fuel) (by simp at enough; omega)
  have closed : skipBlank (cs ++ '\x7d' :: rest) = '\x7d' :: rest := skipBlank_of_blank blank _
  rw [List.cons_append, List.append_assoc, List.singleton_append, readValue?, closed]
  rfl

theorem reads_element {j : Json} {inner cs : List Char} (starts : skipBlank inner = inner)
    (value : Reads (.value j) inner) (opens : Opens inner) (padded : Padded inner cs) :
    Reads (.element j) cs := by
  obtain ⟨before, after, blank, blankAfter, rfl⟩ := padded
  intro fuel rest enough stops
  rw [List.length_append, List.length_append] at enough
  obtain ⟨c, tail, first, -⟩ := opens
  have begun : skipBlank (inner ++ (after ++ rest)) = inner ++ (after ++ rest) := by
    rw [skipBlank_append first, ← List.cons_append, ← first, starts]
  have read := value fuel (after ++ rest) (by omega) (noDigitNext_append blankAfter stops.2)
  rw [List.append_assoc, skipBlank_of_blank blank, List.append_assoc, begun, read,
    skipBlank_of_blank blankAfter, stops.1]

/-- An item, what comes after it being a comma and further items. -/
theorem reads_item {j : Json} {js : List Json} {cs others : List Char}
    (item : Reads (.element j) cs) (further : Reads (.items js) others) :
    Reads (.items (j :: js)) (cs ++ ',' :: others) := by
  intro fuel rest enough
  rw [List.length_append, List.length_cons] at enough
  obtain ⟨fuel, rfl⟩ := Nat.exists_eq_succ_of_ne_zero (n := fuel) (by omega)
  have first := item fuel (',' :: (others ++ ']' :: rest)) (by omega) (stops_cons rfl rfl _)
  have below := further fuel rest (by omega)
  rw [List.append_assoc, List.cons_append, readItems?, first]
  simp only [below, Option.map_some]

theorem reads_lastItem {j : Json} {cs : List Char} (item : Reads (.element j) cs) :
    Reads (.items [j]) cs := by
  intro fuel rest enough
  obtain ⟨fuel, rfl⟩ := Nat.exists_eq_succ_of_ne_zero (n := fuel) (by omega)
  have first := item fuel (']' :: rest) (by omega) (stops_cons rfl rfl _)
  rw [readItems?, first]
  rfl

theorem reads_field {name : String} {j : Json} {inner key cs : List Char}
    (quoted : Quotes name inner) (padded : Padded inner key) (value : Reads (.element j) cs) :
    Reads (.field name j) (key ++ ':' :: cs) := by
  obtain ⟨before, after, blank, blankAfter, rfl⟩ := padded
  intro fuel rest enough stops
  rw [List.length_append, List.length_cons] at enough
  obtain ⟨inside, shape, read⟩ := readText?_of_quotes quoted (after ++ ':' :: (cs ++ rest))
  have colon : skipBlank (after ++ ':' :: (cs ++ rest)) = ':' :: (cs ++ rest) :=
    skipBlank_of_blank blankAfter _
  have begun : skipBlank (before ++ (inner ++ after) ++ ':' :: cs ++ rest) = '"' :: inside := by
    simp only [List.append_assoc, List.cons_append]
    rw [skipBlank_of_blank blank, shape]
    rfl
  refine ⟨skipBlank (cs ++ rest), ?_, value fuel rest (by omega) stops⟩
  rw [begun, readKey?, read, colon]
  rfl

theorem reads_fields {name : String} {j : Json} {fs : List (String × Json)} {cs others : List Char}
    (field : Reads (.field name j) cs) (further : Reads (.fields fs) others) :
    Reads (.fields ((name, j) :: fs)) (cs ++ ',' :: others) := by
  intro fuel rest enough
  rw [List.length_append, List.length_cons] at enough
  obtain ⟨fuel, rfl⟩ := Nat.exists_eq_succ_of_ne_zero (n := fuel) (by omega)
  obtain ⟨tail, key, value⟩ :=
    field fuel (',' :: (others ++ '\x7d' :: rest)) (by omega) (stops_cons rfl rfl _)
  have below := further fuel rest (by omega)
  rw [List.append_assoc, List.cons_append, readFields?, key]
  simp only [Option.bind_eq_bind, Option.bind_some, value, below, Option.map_some]

theorem reads_lastField {name : String} {j : Json} {cs : List Char}
    (field : Reads (.field name j) cs) : Reads (.fields [(name, j)]) cs := by
  intro fuel rest enough
  obtain ⟨fuel, rfl⟩ := Nat.exists_eq_succ_of_ne_zero (n := fuel) (by omega)
  obtain ⟨tail, key, value⟩ := field fuel ('\x7d' :: rest) (by omega) (stops_cons rfl rfl _)
  rw [readFields?, key]
  simp only [Option.bind_eq_bind, Option.bind_some, value]

/-- Whatever the grammar derives is read as what it stands for. -/
theorem Written.reads {p : Phrase} {cs : List Char} (written : Written p cs) : Reads p cs := by
  induction written with
  | null => exact reads_null
  | number n => exact reads_number n
  | text quoted => exact reads_text quoted
  | emptyArray blank => exact reads_emptyArray blank
  | array inside ih => exact reads_array inside.opens ih
  | emptyObject blank => exact reads_emptyObject blank
  | object inside ih => exact reads_object inside.opens ih
  | element value padded ih => exact reads_element value.skipBlank_value ih value.opens padded
  | lastItem _ ih => exact reads_lastItem ih
  | item _ _ ih ihOthers => exact reads_item ih ihOthers
  | field quoted padded _ ih => exact reads_field quoted padded ih
  | lastField _ ih => exact reads_lastField ih
  | fields _ _ ih ihOthers => exact reads_fields ih ihOthers

/-- Reading a text of a value gives the value. -/
theorem read?_of_isText {j : Json} {cs : List Char} (text : IsText j cs) : read? cs = some j := by
  have read := text.reads cs.length [] (Nat.le_refl _) ⟨rfl, by simp [Text.NoDigitNext]⟩
  rw [List.append_nil] at read
  rw [read?, read]

/-- A text has one value at most. -/
theorem IsText.unique {j k : Json} {cs : List Char} (first : IsText j cs) (second : IsText k cs) :
    j = k :=
  Option.some.inj ((read?_of_isText first).symm.trans (read?_of_isText second))

end HunkReview.Json
