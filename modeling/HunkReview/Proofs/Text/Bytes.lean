import HunkReview.Text.Lines
import Mathlib.Data.List.Basic

/-! The bytes of a text, what is left of them when those at certain offsets are deleted, and their
order. -/
namespace HunkReview.Text

def bytes (text : String) : List UInt8 :=
  text.toUTF8.data.toList

theorem bytes_append (a b : String) : bytes (a ++ b) = bytes a ++ bytes b := by
  simp [bytes, String.toUTF8, String.toByteArray_append, ByteArray.data_append]

@[simp] theorem length_bytes (text : String) : (bytes text).length = text.utf8ByteSize := by
  rfl

/-- The bytes of a text that begins at an offset, without those whose offset is deleted. -/
def bytesOutside (deleted : Nat → Bool) (offset : Nat) (text : String) : List UInt8 :=
  (((bytes text).zipIdx offset).filter fun b => !deleted b.2).map (·.1)

theorem bytesOutside_append (deleted : Nat → Bool) (offset : Nat) (a b : String) :
    bytesOutside deleted offset (a ++ b) =
      bytesOutside deleted offset a ++ bytesOutside deleted (offset + a.utf8ByteSize) b := by
  simp [bytesOutside, bytes_append, List.zipIdx_append]

theorem bytesOutside_of_all {deleted : Nat → Bool} {offset : Nat} {text : String}
    (all : ∀ i, offset ≤ i → i < offset + text.utf8ByteSize → deleted i) :
    bytesOutside deleted offset text = [] := by
  have none : ((bytes text).zipIdx offset).filter (fun b => !deleted b.2) = [] := by
    refine List.filter_eq_nil_iff.mpr fun b member => ?_
    have inside := List.mem_zipIdx member
    simp [all b.2 inside.1 (by simpa using inside.2.1)]
  rw [bytesOutside, none, List.map_nil]

theorem bytesOutside_of_none {deleted : Nat → Bool} {offset : Nat} {text : String}
    (none : ∀ i, offset ≤ i → i < offset + text.utf8ByteSize → ¬deleted i) :
    bytesOutside deleted offset text = bytes text := by
  have all : ((bytes text).zipIdx offset).filter (fun b => !deleted b.2) =
      (bytes text).zipIdx offset := by
    refine List.filter_eq_self.mpr fun b member => ?_
    have inside := List.mem_zipIdx member
    simpa using none b.2 inside.1 (by simpa using inside.2.1)
  rw [bytesOutside, all, List.zipIdx_map_fst]

/-! ### The order of bytes -/

theorem bytes_eq_flatMap (text : String) :
    bytes text = text.toList.flatMap String.utf8EncodeChar := by
  rw [bytes, String.toUTF8_eq_toByteArray]
  conv_lhs => rw [← String.ofList_toList (s := text)]
  exact List.toList_data_toByteArray

/-- The first byte in which two characters differ is the greater one in the greater character. -/
theorem encodeChar_lt {c d : Char} (less : c < d) (xs ys : List UInt8) :
    String.utf8EncodeChar c ++ xs < String.utf8EncodeChar d ++ ys := by
  have codes : c.val.toNat < d.val.toNat := less
  have last : d.val.toNat < 0x110000 := by
    rcases d.valid with low | ⟨-, high⟩
    · exact Nat.lt_trans low (by decide)
    · exact high
  unfold String.utf8EncodeChar
  dsimp only
  split_ifs <;> simp only [List.cons_append, List.nil_append, List.cons_lt_cons_iff,
    UInt8.lt_iff_toNat_lt, ← UInt8.toNat_inj, UInt8.toNat_ofNat']
  all_goals
    simp (disch := omega) only [Nat.mod_eq_of_lt, Nat.reducePow]
    omega

/-- Texts stand in the order of their bytes. -/
theorem bytes_lt {a b : String} (less : a < b) : bytes a < bytes b := by
  rw [bytes_eq_flatMap, bytes_eq_flatMap]
  have chars : List.Lex (· < ·) a.toList b.toList := less
  generalize a.toList = cs, b.toList = ds at chars ⊢
  induction chars with
  | @nil d ds =>
    obtain ⟨byte, rest, encoded⟩ := List.exists_cons_of_ne_nil (@String.utf8EncodeChar_ne_nil d)
    rw [List.flatMap_cons, encoded]
    exact List.nil_lt_cons _ _
  | cons _ ih => exact List.append_left_lt ih
  | rel first => exact encodeChar_lt first _ _

end HunkReview.Text
