/-!
# Decoding UTF-8

Bytes are read character by character. Where no character can be read, the longest beginning of
one that is there counts as one fault, and at least one byte does. The strict reading refuses any
fault; the forgiving one puts a replacement character for each.
-/

namespace HunkReview.Text

/-- What a first byte promises: the number of bytes after it, the range of the next one, and the
bits of the code point so far. -/
def leadByte (b : Nat) : Option (Nat × Nat × Nat × Nat) :=
  if b < 0x80 then some (0, 0, 0, b)
  else if 0xC2 ≤ b ∧ b ≤ 0xDF then some (1, 0x80, 0xBF, b - 0xC0)
  else if b = 0xE0 then some (2, 0xA0, 0xBF, 0)
  else if b = 0xED then some (2, 0x80, 0x9F, 0xD)
  else if 0xE1 ≤ b ∧ b ≤ 0xEF then some (2, 0x80, 0xBF, b - 0xE0)
  else if b = 0xF0 then some (3, 0x90, 0xBF, 0)
  else if 0xF1 ≤ b ∧ b ≤ 0xF3 then some (3, 0x80, 0xBF, b - 0xF0)
  else if b = 0xF4 then some (3, 0x80, 0x8F, 4)
  else none

def trailBytes (low high bits : Nat) : Nat → List UInt8 → Option Char × List UInt8
  | 0, bs => (some (Char.ofNat bits), bs)
  | _ + 1, [] => (none, [])
  | n + 1, b :: bs =>
    if low ≤ b.toNat ∧ b.toNat ≤ high then
      trailBytes 0x80 0xBF (bits * 64 + (b.toNat - 0x80)) n bs
    else (none, b :: bs)

theorem length_trailBytes (low high bits n : Nat) (bs : List UInt8) :
    (trailBytes low high bits n bs).2.length ≤ bs.length := by
  induction n generalizing low high bits bs with
  | zero => simp [trailBytes]
  | succ n ih =>
    cases bs with
    | nil => simp [trailBytes]
    | cons b bs =>
      unfold trailBytes
      split
      · exact Nat.le_succ_of_le (ih ..)
      · simp

def firstChar (b : UInt8) (bs : List UInt8) : Option Char × List UInt8 :=
  match leadByte b.toNat with
  | none => (none, bs)
  | some (n, low, high, bits) => trailBytes low high bits n bs

theorem length_firstChar (b : UInt8) (bs : List UInt8) :
    (firstChar b bs).2.length ≤ bs.length := by
  unfold firstChar
  split
  · exact Nat.le_refl _
  · exact length_trailBytes ..

/-- The characters and faults of a text. -/
def decode : List UInt8 → List (Option Char)
  | [] => []
  | b :: bs => (firstChar b bs).1 :: decode (firstChar b bs).2
termination_by bs => bs.length
decreasing_by exact Nat.lt_succ_of_le (length_firstChar b bs)

def decodeStrict? (bytes : ByteArray) : Option String :=
  ((decode bytes.toList).mapM id).map String.ofList

def decodeLossy (bytes : ByteArray) : String :=
  String.ofList ((decode bytes.toList).map (·.getD '\uFFFD'))

end HunkReview.Text
