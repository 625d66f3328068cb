/-!
# Hexadecimal digits
-/

namespace HunkReview.Text

/-- Lower-case hexadecimal digits, filled up with zeros on the left. -/
def hexDigits (width n : Nat) : List Char :=
  let digits := Nat.toDigits 16 n
  List.replicate (width - digits.length) '0' ++ digits

end HunkReview.Text
