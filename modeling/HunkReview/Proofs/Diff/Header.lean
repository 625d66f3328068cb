import HunkReview.Diff.Parser
import HunkReview.Proofs.Text.Digits
import HunkReview.Proofs.Text.Lines
import HunkReview.Proofs.Text.Trimmed

/-! The header line of a hunk. A line is read as a header exactly when it is written as one, and it can
be written in one way only: the four numbers stand where the first characters that are no digits end
them. -/
namespace HunkReview

/-! ### Numerals -/

/-- Decimal digits that write a line number; zeros on the left do not change it. -/
structure IsNumeral (digits : List Char) (n : LineNo) : Prop where
  given : digits ≠ []
  decimal : ∀ c ∈ digits, c.isDigit
  value : Nat.ofDigitChars 10 digits 0 = n.val

theorem LineNo.ofNat?_eq_some_iff {value : Nat} {n : LineNo} :
    ofNat? value = some n ↔ value = n.val := by
  constructor
  · intro found
    unfold ofNat? at found
    split at found
    · cases found
      rfl
    · cases found
  · rintro rfl
    simp [ofNat?, n.le_max]

/-- A line number is a number that is small enough. -/
theorem LineNo.read?_eq_readNat? (cs : List Char) :
    read? cs = (Text.readNat? cs).bind fun read => (ofNat? read.1).map (·, read.2) := by
  unfold read? ofDigits? Text.readNat?
  by_cases empty : cs.takeWhile Char.isDigit = [] <;> simp [empty]

/-- A numeral goes on up to the first character that is no digit. -/
theorem LineNo.read?_eq_some_iff {cs rest : List Char} {n : LineNo} :
    read? cs = some (n, rest) ↔
      ∃ digits, cs = digits ++ rest ∧ IsNumeral digits n ∧ Text.NoDigitNext rest := by
  rw [read?_eq_readNat?]
  constructor
  · intro read
    obtain ⟨⟨value, tail⟩, found, small⟩ := Option.bind_eq_some_iff.mp read
    obtain ⟨m, fits, same⟩ := Option.map_eq_some_iff.mp small
    cases same
    obtain ⟨digits, rfl, given, decimal, rfl, stop⟩ := Text.readNat?_eq_some_iff.mp found
    exact ⟨digits, rfl, ⟨given, decimal, ofNat?_eq_some_iff.mp fits⟩, stop⟩
  · rintro ⟨digits, rfl, numeral, stop⟩
    simp [Text.readNat?_append numeral.decimal numeral.given stop,
      ofNat?_eq_some_iff.mpr numeral.value]

theorem LineNo.toList_render (n : LineNo) : n.render.toList = Nat.toDigits 10 n.val :=
  Nat.toList_repr

theorem LineNo.isNumeral_render (n : LineNo) : IsNumeral n.render.toList n where
  given := by simp [toList_render, Nat.toDigits_ne_nil]
  decimal := by
    rw [toList_render]
    exact fun c => Text.isDigit_of_mem_toDigits
  value := by rw [toList_render, Nat.ofDigitChars_ten_toDigits]

/-! ### Sides -/

/-- How a side of a header is written: a start, and a count unless it is left out. -/
structure SideText where
  start : List Char
  count : Option (List Char)

namespace SideText

def text (s : SideText) : List Char :=
  match s.count with
  | none => s.start
  | some count => s.start ++ ',' :: count

def numerals (s : SideText) : List (List Char) :=
  s.start :: s.count.toList

/-- The numbers that are written; a count that is left out is one. -/
structure Tells (s : SideText) (start count : LineNo) : Prop where
  start : IsNumeral s.start start
  count : match s.count with
    | none => count.val = 1
    | some digits => IsNumeral digits count

theorem Tells.exists_isNumeral {s : SideText} {start count : LineNo} (tells : s.Tells start count) :
    ∀ numeral ∈ s.numerals, ∃ n, IsNumeral numeral n := by
  obtain ⟨written, omitted | digits⟩ := s
  · simpa [numerals] using ⟨start, tells.start⟩
  · simpa [numerals] using ⟨⟨start, tells.start⟩, count, tells.count⟩

end SideText

namespace HunkHeader

theorem readSide?_counted {cs rest tail : List Char} {start count : LineNo}
    (first : LineNo.read? cs = some (start, ',' :: rest))
    (second : LineNo.read? rest = some (count, tail)) :
    readSide? cs = some (start, count, tail) := by
  simp only [readSide?, first, second, Option.map_some]

theorem readSide?_single {cs rest : List Char} {start : LineNo} {c : Char}
    (first : LineNo.read? cs = some (start, c :: rest)) (apart : c ≠ ',') :
    readSide? cs = some (start, LineNo.clamp 1, c :: rest) := by
  unfold readSide?
  split
  next missing => simp [first] at missing
  next start' tail found => simp [first, apart] at found
  next start' tail _ found => simp_all

/-- What is read as a side is written as one. -/
theorem exists_sideText {cs rest : List Char} {start count : LineNo}
    (read : readSide? cs = some (start, count, rest)) :
    ∃ s : SideText, cs = s.text ++ rest ∧ s.Tells start count := by
  unfold readSide? at read
  split at read
  · cases read
  · next first tail found =>
    obtain ⟨⟨second, after⟩, counted, same⟩ := Option.map_eq_some_iff.mp read
    cases same
    obtain ⟨digits, rfl, starts, -⟩ := LineNo.read?_eq_some_iff.mp found
    obtain ⟨digits', rfl, counts, -⟩ := LineNo.read?_eq_some_iff.mp counted
    exact ⟨⟨digits, some digits'⟩, by simp [SideText.text], starts, counts⟩
  · next first tail _ found =>
    cases read
    obtain ⟨digits, rfl, starts, -⟩ := LineNo.read?_eq_some_iff.mp found
    exact ⟨⟨digits, none⟩, rfl, starts, rfl⟩

/-- What is written as a side is read as one, up to a character that neither goes on with the numeral nor
starts a count. -/
theorem readSide?_text {s : SideText} {start count : LineNo} (tells : s.Tells start count) {c : Char}
    (rest : List Char) (stop : c.isDigit = false) (apart : c ≠ ',') :
    readSide? (s.text ++ c :: rest) = some (start, count, c :: rest) := by
  have stops {d : Char} {ds : List Char} (plain : d.isDigit = false) : Text.NoDigitNext (d :: ds) := by
    rintro e ⟨⟩
    exact plain
  obtain ⟨digits, omitted | digits'⟩ := s
  · have one : count = LineNo.clamp 1 := LineNo.ext (by simpa using tells.count)
    rw [one]
    exact readSide?_single (LineNo.read?_eq_some_iff.mpr ⟨digits, rfl, tells.start, stops stop⟩) apart
  · have first : LineNo.read? (digits ++ ',' :: (digits' ++ c :: rest)) =
        some (start, ',' :: (digits' ++ c :: rest)) :=
      LineNo.read?_eq_some_iff.mpr ⟨digits, rfl, tells.start, stops (by decide)⟩
    have second : LineNo.read? (digits' ++ c :: rest) = some (count, c :: rest) :=
      LineNo.read?_eq_some_iff.mpr ⟨digits', rfl, tells.count, stops stop⟩
    simpa [SideText.text] using readSide?_counted first second

end HunkHeader

/-! ### Headers -/

/-- How a header is written: two sides between their marks, and what follows them. -/
@[ext] structure HeaderText where
  old : SideText
  new : SideText
  rest : List Char

namespace HeaderText

def text (t : HeaderText) : List Char :=
  "@@ -".toList ++ (t.old.text ++ (" +".toList ++ (t.new.text ++ (" @@".toList ++ t.rest))))

def numerals (t : HeaderText) : List (List Char) :=
  t.old.numerals ++ t.new.numerals

/-- The numbers that are written, and what follows them on the line without the blanks at its ends. -/
structure Tells (t : HeaderText) (h : HunkHeader) : Prop where
  old : t.old.Tells h.oldStart h.oldCount
  new : t.new.Tells h.newStart h.newCount
  oneLine : '\n' ∉ t.rest
  context : Text.IsTrimmed t.rest h.context.toList

end HeaderText

namespace HunkHeader

theorem parse?_of_parts {cs cs₁ cs₂ cs₃ cs₄ rest : List Char} {a b c d : LineNo}
    (opening : Text.stripStart? ['@', '@', ' ', '-'] cs = some cs₁)
    (old : readSide? cs₁ = some (a, b, cs₂))
    (between : Text.stripStart? [' ', '+'] cs₂ = some cs₃)
    (new : readSide? cs₃ = some (c, d, cs₄))
    (closing : Text.stripStart? [' ', '@', '@'] cs₄ = some rest) (clean : '\n' ∉ rest) :
    parse? cs = some ⟨a, b, c, d, String.ofList (Text.trim rest)⟩ := by
  simp [parse?, opening, old, between, new, closing, clean]

/-- What is written as a header is read as one. -/
theorem parse?_text {t : HeaderText} {h : HunkHeader} (tells : t.Tells h) : parse? t.text = some h := by
  have read := parse?_of_parts (Text.stripStart?_append "@@ -".toList _)
    (readSide?_text tells.old _ (by decide) (by decide))
    (Text.stripStart?_append " +".toList _)
    (readSide?_text tells.new _ (by decide) (by decide))
    (Text.stripStart?_append " @@".toList t.rest) tells.oneLine
  rw [← tells.context.eq_trim, String.ofList_toList] at read
  exact read

/-- What is read as a header is written as one. -/
theorem exists_headerText {line : List Char} {h : HunkHeader} (read : parse? line = some h) :
    ∃ t : HeaderText, t.text = line ∧ t.Tells h := by
  unfold parse? at read
  simp only [Option.bind_eq_bind, Option.bind_eq_some_iff] at read
  obtain ⟨cs₁, opening, ⟨a, b, cs₂⟩, readOld, cs₃, between, ⟨c, d, cs₄⟩, readNew, rest, closing, done⟩ :=
    read
  obtain ⟨old, rfl, tellsOld⟩ := exists_sideText readOld
  obtain ⟨new, rfl, tellsNew⟩ := exists_sideText readNew
  rw [Text.stripStart?_eq_some_iff] at opening between closing
  subst opening between closing
  split at done
  · cases done
  · next clean =>
    cases done
    refine ⟨⟨old, new, rest⟩, rfl, tellsOld, tellsNew, clean, ?_⟩
    rw [String.toList_ofList]
    exact Text.isTrimmed_trim rest

end HunkHeader

/-! ### One way to write a header -/

def Separated (numerals : List (List Char)) : Prop :=
  ∀ numeral ∈ numerals, ' ' ∉ numeral ∧ ',' ∉ numeral

theorem separated_of_isNumeral {numerals : List (List Char)}
    (each : ∀ numeral ∈ numerals, ∃ n, IsNumeral numeral n) : Separated numerals := by
  intro numeral member
  obtain ⟨n, isNumeral⟩ := each numeral member
  constructor
  · exact fun space => absurd (isNumeral.decimal _ space) (by decide)
  · exact fun comma => absurd (isNumeral.decimal _ comma) (by decide)

namespace SideText

theorem space_notMem_text {s : SideText} (separated : Separated s.numerals) : ' ' ∉ s.text := by
  obtain ⟨start, omitted | count⟩ := s <;> simp_all [Separated, numerals, text]

theorem text_inj {s t : SideText} (separated : Separated s.numerals)
    (separated' : Separated t.numerals) (same : s.text = t.text) : s = t := by
  obtain ⟨start, count⟩ := s
  obtain ⟨start', count'⟩ := t
  have free : ',' ∉ start := (separated start (by simp [numerals])).2
  have free' : ',' ∉ start' := (separated' start' (by simp [numerals])).2
  rcases count with _ | digits <;> rcases count' with _ | digits' <;> simp only [text] at same
  · rw [same]
  · simp [same] at free
  · simp [← same] at free'
  · obtain ⟨rfl, rfl⟩ := Text.append_cons_inj free free' same
    rfl

end SideText

namespace HeaderText

theorem text_eq (t : HeaderText) : t.text = ['@', '@', ' ', '-'] ++
    (t.old.text ++ ' ' :: '+' :: (t.new.text ++ ' ' :: '@' :: '@' :: t.rest)) :=
  rfl

theorem text_inj {t u : HeaderText} (separated : Separated t.numerals)
    (separated' : Separated u.numerals) (same : t.text = u.text) : t = u := by
  obtain ⟨sepOld, sepNew⟩ := List.forall_mem_append.mp separated
  obtain ⟨sepOld', sepNew'⟩ := List.forall_mem_append.mp separated'
  -- the old side ends at the first space behind the opening mark, and the new one at the next
  rw [text_eq, text_eq, List.append_cancel_left_eq] at same
  obtain ⟨olds, behind⟩ := Text.append_cons_inj (SideText.space_notMem_text sepOld)
    (SideText.space_notMem_text sepOld') same
  obtain ⟨-, behind⟩ := List.cons.inj behind
  obtain ⟨news, behind⟩ := Text.append_cons_inj (SideText.space_notMem_text sepNew)
    (SideText.space_notMem_text sepNew') behind
  have rests : t.rest = u.rest := by simpa using behind
  exact HeaderText.ext (SideText.text_inj sepOld sepOld' olds)
    (SideText.text_inj sepNew sepNew' news) rests

theorem Tells.exists_isNumeral {t : HeaderText} {h : HunkHeader} (tells : t.Tells h) :
    ∀ numeral ∈ t.numerals, ∃ n, IsNumeral numeral n :=
  List.forall_mem_append.mpr ⟨tells.old.exists_isNumeral, tells.new.exists_isNumeral⟩

theorem Tells.separated {t : HeaderText} {h : HunkHeader} (tells : t.Tells h) : Separated t.numerals :=
  separated_of_isNumeral tells.exists_isNumeral

end HeaderText

/-- A line is read as a header exactly when it is written as one, and there is one way to write it. Other
characters than digits in a number's place, or a number that is too large, are never read. -/
theorem HunkHeader.parse?_tells (line : List Char) :
    (∀ h, parse? line = some h ↔ ∃ t : HeaderText, t.text = line ∧ t.Tells h) ∧
    (∀ (t u : HeaderText) (h k : HunkHeader), t.text = line → u.text = line → t.Tells h → u.Tells k →
      t = u) ∧
    ∀ t : HeaderText, t.text = line → Separated t.numerals →
      (∃ numeral ∈ t.numerals, (∃ c ∈ numeral, c.isDigit = false) ∨
        2 ^ 32 - 1 < Nat.ofDigitChars 10 numeral 0) →
      parse? line = none := by
  refine ⟨fun h => ⟨exists_headerText, ?_⟩, ?_, ?_⟩
  · rintro ⟨t, rfl, tells⟩
    exact parse?_text tells
  · rintro t u h k rfl same tells tells'
    exact HeaderText.text_inj tells.separated tells'.separated same.symm
  · rintro t rfl separated ⟨numeral, member, wrong⟩
    rw [Option.eq_none_iff_forall_ne_some]
    intro h read
    obtain ⟨u, same, tells⟩ := exists_headerText read
    obtain rfl := HeaderText.text_inj tells.separated separated same
    obtain ⟨n, isNumeral⟩ := tells.exists_isNumeral numeral member
    rcases wrong with ⟨c, inside, other⟩ | large
    · simp [isNumeral.decimal c inside] at other
    · have := n.le_max
      rw [isNumeral.value] at large
      omega

def paddedHeader : HeaderText :=
  ⟨⟨"007".toList, none⟩, ⟨"4294967295".toList, some "0".toList⟩, "\t é\u00A0".toList⟩

def brokenHeader : HeaderText :=
  ⟨⟨"1".toList, some "٣".toList⟩, ⟨"4294967296".toList, none⟩, []⟩

theorem HunkHeader.parse?_tells_padded :
    paddedHeader.text = "@@ -007 +4294967295,0 @@\t é\u00A0".toList ∧
    paddedHeader.Tells ⟨.clamp 7, .clamp 1, .clamp 4294967295, .clamp 0, "é"⟩ ∧
    parse? paddedHeader.text = some ⟨.clamp 7, .clamp 1, .clamp 4294967295, .clamp 0, "é"⟩ ∧
    brokenHeader.text = "@@ -1,٣ +4294967296 @@".toList ∧ Separated brokenHeader.numerals ∧
    parse? brokenHeader.text = none := by
  have tells : paddedHeader.Tells ⟨.clamp 7, .clamp 1, .clamp 4294967295, .clamp 0, "é"⟩ := by
    constructor
    case old => exact ⟨⟨by simp [paddedHeader], by simp [paddedHeader], rfl⟩, rfl⟩
    case new =>
      exact ⟨⟨by simp [paddedHeader], by simp [paddedHeader], rfl⟩, ⟨by simp, by simp, rfl⟩⟩
    case oneLine => simp [paddedHeader]
    case context =>
      have blanks : (∀ c ∈ ['\t', ' '], Text.isBlank c) ∧ ∀ c ∈ ['\u00A0'], Text.isBlank c := by
        simp [Text.isBlank, Text.inRanges, Text.blankRanges]
      exact ⟨⟨_, _, rfl, blanks⟩, by rintro c ⟨⟩; rfl, by rintro c ⟨⟩; rfl⟩
  have separated : Separated brokenHeader.numerals := by
    simp [Separated, brokenHeader, HeaderText.numerals, SideText.numerals]
  refine ⟨rfl, tells, ?_, rfl, separated, ?_⟩
  · exact ((parse?_tells _).1 _).mpr ⟨paddedHeader, rfl, tells⟩
  · refine (parse?_tells _).2.2 brokenHeader rfl separated ⟨"٣".toList, ?_, .inl ?_⟩
    · simp [brokenHeader, HeaderText.numerals, SideText.numerals]
    · exact ⟨'٣', by simp, rfl⟩

end HunkReview
