import HunkReview.Text.Hex
import HunkReview.Time
import Mathlib.Algebra.GroupWithZero.Nat
import Mathlib.Data.List.TakeWhile

/-! Reading back the digits of a number. Zeros on the left do not change the number, and a number
ends before the first character that is no digit. -/
namespace HunkReview.Text

/-! ### Hexadecimal digits -/

def hexValue? (c : Char) : Option Nat :=
  if c.isDigit then some (c.toNat - '0'.toNat)
  else if 'a' ≤ c ∧ c ≤ 'f' then some (c.toNat - 'a'.toNat + 10)
  else if 'A' ≤ c ∧ c ≤ 'F' then some (c.toNat - 'A'.toNat + 10)
  else none

def readHexFrom? (n : Nat) (cs : List Char) : Option Nat :=
  cs.foldlM (fun n c => (hexValue? c).map (16 * n + ·)) n

def readHex? (cs : List Char) : Option Nat :=
  readHexFrom? 0 cs

theorem hexValue?_digitChar {d : Nat} (below : d < 16) : hexValue? (Nat.digitChar d) = some d := by
  have all : ∀ d : Fin 16, hexValue? (Nat.digitChar d) = some d.val := by decide
  exact all ⟨d, below⟩

theorem readHexFrom?_append (n : Nat) (cs ds : List Char) :
    readHexFrom? n (cs ++ ds) = (readHexFrom? n cs).bind (readHexFrom? · ds) :=
  List.foldlM_append

theorem readHexFrom?_digit (n : Nat) {d : Nat} (below : d < 16) :
    readHexFrom? n [Nat.digitChar d] = some (16 * n + d) := by
  simp [readHexFrom?, hexValue?_digitChar below]

theorem readHex?_zeros (count : Nat) : readHex? (List.replicate count '0') = some 0 := by
  induction count with
  | zero => rfl
  | succ count ih => exact ih

theorem readHex?_toDigits (n : Nat) : readHex? (Nat.toDigits 16 n) = some n := by
  induction n using Nat.strongRecOn with
  | ind n ih =>
    rw [Nat.toDigits_eq_if (by decide)]
    split
    next below => simpa [readHex?] using readHexFrom?_digit 0 below
    next above =>
      have read := ih (n / 16) (by omega)
      rw [readHex?] at read
      rw [readHex?, readHexFrom?_append, read, Option.bind_some,
        readHexFrom?_digit _ (Nat.mod_lt n (by decide)), Nat.div_add_mod]

theorem readHex?_hexDigits (width n : Nat) : readHex? (hexDigits width n) = some n := by
  have zeros := readHex?_zeros (width - (Nat.toDigits 16 n).length)
  rw [readHex?] at zeros
  rw [hexDigits, readHex?, readHexFrom?_append, zeros]
  exact readHex?_toDigits n

theorem length_hexDigits {width n : Nat} (positive : 0 < width) (fits : n < 16 ^ width) :
    (hexDigits width n).length = width := by
  have short := (Nat.length_toDigits_le_iff (b := 16) (by decide) positive).mpr fits
  simp only [hexDigits, List.length_append, List.length_replicate]
  omega

theorem isSome_hexValue?_of_read {n value : Nat} {cs : List Char}
    (read : readHexFrom? n cs = some value) : ∀ c ∈ cs, (hexValue? c).isSome := by
  induction cs generalizing n with
  | nil => simp
  | cons c cs ih =>
    cases digit : hexValue? c with
    | none => simp [readHexFrom?, digit] at read
    | some d =>
      have below : readHexFrom? (16 * n + d) cs = some value := by
        simpa [readHexFrom?, digit] using read
      exact List.forall_mem_cons.mpr ⟨digit ▸ rfl, ih below⟩

/-! ### Decimal digits -/

theorem isDigit_of_mem_toDigits {n : Nat} {c : Char} (member : c ∈ Nat.toDigits 10 n) : c.isDigit :=
  Nat.isDigit_of_mem_toDigits (by decide) (by decide) member

def readNat? (cs : List Char) : Option (Nat × List Char) :=
  if cs.takeWhile Char.isDigit = [] then none
  else some (Nat.ofDigitChars 10 (cs.takeWhile Char.isDigit) 0, cs.dropWhile Char.isDigit)

/-- The number before a stop, and what follows the stop. -/
def readUpTo? (stop : Char) (cs : List Char) : Option (Nat × List Char) :=
  match readNat? cs with
  | some (n, c :: rest) => if c = stop then some (n, rest) else none
  | _ => none

def NoDigitNext (rest : List Char) : Prop :=
  ∀ c, rest.head? = some c → c.isDigit = false

theorem readNat?_append {ds rest : List Char} (digits : ∀ c ∈ ds, c.isDigit) (given : ds ≠ [])
    (stop : NoDigitNext rest) : readNat? (ds ++ rest) = some (Nat.ofDigitChars 10 ds 0, rest) := by
  have ended : rest.takeWhile Char.isDigit = [] ∧ rest.dropWhile Char.isDigit = rest := by
    cases rest with
    | nil => exact ⟨rfl, rfl⟩
    | cons c cs => simp [stop c rfl]
  rw [readNat?, List.takeWhile_append_of_pos digits, List.dropWhile_append_of_pos digits, ended.1,
    ended.2, List.append_nil, if_neg given]

theorem readNat?_eq_some_iff {cs rest : List Char} {n : Nat} :
    readNat? cs = some (n, rest) ↔ ∃ ds, cs = ds ++ rest ∧ ds ≠ [] ∧ (∀ c ∈ ds, c.isDigit) ∧
      Nat.ofDigitChars 10 ds 0 = n ∧ NoDigitNext rest := by
  constructor
  · intro read
    unfold readNat? at read
    split at read
    · cases read
    · next given =>
      cases read
      refine ⟨_, List.takeWhile_append_dropWhile.symm, given, fun c => List.mem_takeWhile_imp, rfl, ?_⟩
      intro c first
      simpa [first] using List.head?_dropWhile_not Char.isDigit cs
  · rintro ⟨ds, rfl, given, digits, rfl, stop⟩
    exact readNat?_append digits given stop

theorem toList_padZeros (width n : Nat) : (padZeros width n).toList =
    List.replicate (width - (Nat.toDigits 10 n).length) '0' ++ Nat.toDigits 10 n := by
  have digits : (toString n).toList = Nat.toDigits 10 n := Nat.toList_repr
  rw [padZeros, String.toList_append, String.toList_ofList, digits, ← String.length_toList, digits]

theorem readNat?_toDigits (n : Nat) {rest : List Char} (stop : NoDigitNext rest) :
    readNat? (Nat.toDigits 10 n ++ rest) = some (n, rest) := by
  rw [readNat?_append (fun _ => isDigit_of_mem_toDigits) Nat.toDigits_ne_nil stop,
    Nat.ofDigitChars_ten_toDigits]

theorem padZeros_digits {width n : Nat} {c : Char} (member : c ∈ (padZeros width n).toList) :
    c.isDigit := by
  rw [toList_padZeros, List.mem_append, List.mem_replicate] at member
  rcases member with ⟨-, rfl⟩ | member
  · rfl
  · exact isDigit_of_mem_toDigits member

theorem padZeros_ne_nil (width n : Nat) : (padZeros width n).toList ≠ [] := by
  rw [toList_padZeros]
  exact List.append_ne_nil_of_right_ne_nil _ Nat.toDigits_ne_nil

theorem ofDigitChars_padZeros (width n : Nat) :
    Nat.ofDigitChars 10 (padZeros width n).toList 0 = n := by
  rw [toList_padZeros, Nat.ofDigitChars_append, Nat.ofDigitChars_replicate_zero, Nat.mul_zero,
    Nat.ofDigitChars_ten_toDigits]

theorem length_padZeros {width n : Nat} (positive : 0 < width) (fits : n < 10 ^ width) :
    (padZeros width n).toList.length = width := by
  have short := (Nat.length_toDigits_le_iff (b := 10) (by decide) positive).mpr fits
  rw [toList_padZeros, List.length_append, List.length_replicate]
  omega

theorem readNat?_padZeros (width n : Nat) {rest : List Char} (stop : NoDigitNext rest) :
    readNat? ((padZeros width n).toList ++ rest) = some (n, rest) := by
  rw [readNat?_append (fun _ => padZeros_digits) (padZeros_ne_nil width n) stop,
    ofDigitChars_padZeros]

theorem readUpTo?_padZeros (width n : Nat) {stop : Char} (other : stop.isDigit = false)
    (rest : List Char) :
    readUpTo? stop ((padZeros width n).toList ++ stop :: rest) = some (n, rest) := by
  have next : NoDigitNext (stop :: rest) := fun c first => Option.some.inj first ▸ other
  rw [readUpTo?, readNat?_padZeros width n next]
  exact if_pos rfl

end HunkReview.Text
