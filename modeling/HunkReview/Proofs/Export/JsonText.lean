import HunkReview.Export.Json
import HunkReview.Proofs.Text.Digits
import Mathlib.Tactic.SplitIfs

/-! The texts of a JSON value: the grammar with blanks between any two tokens and every way to
write a character, for the values there are here. What is printed of a value is one of its texts. -/
namespace HunkReview.Json

def isBlank (c : Char) : Bool :=
  c == ' ' || c == '\n' || c == '\r' || c == '\t'

/-- The characters that have a short form, by the letter of the form. -/
def shortEscape? : Char → Option Char
  | '"' => some '"'
  | '\\' => some '\\'
  | '/' => some '/'
  | 'b' => some '\x08'
  | 'f' => some '\x0c'
  | 'n' => some '\n'
  | 'r' => some '\r'
  | 't' => some '\t'
  | _ => none

inductive WritesChar : Char → List Char → Prop
  | plain {c : Char} (printable : 0x20 ≤ c.toNat) (noQuote : c ≠ '"') (noEscape : c ≠ '\\') :
    WritesChar c [c]
  | short {c letter : Char} (escape : shortEscape? letter = some c) : WritesChar c ['\\', letter]
  | numbered {c : Char} {digits : List Char} (four : digits.length = 4)
    (number : Text.readHex? digits = some c.toNat) : WritesChar c ('\\' :: 'u' :: digits)

inductive WritesChars : List Char → List Char → Prop
  | nil : WritesChars [] []
  | cons {c : Char} {cs written rest : List Char} (first : WritesChar c written)
    (others : WritesChars cs rest) : WritesChars (c :: cs) (written ++ rest)

def Quotes (s : String) (cs : List Char) : Prop :=
  ∃ body, WritesChars s.toList body ∧ cs = '"' :: (body ++ ['"'])

def Padded (inner cs : List Char) : Prop :=
  ∃ before after, (∀ c ∈ before, isBlank c) ∧ (∀ c ∈ after, isBlank c) ∧
    cs = before ++ (inner ++ after)

/-- What a stretch of text stands for. Items and fields are what stands between brackets. -/
inductive Phrase where
  | value (j : Json)
  | element (j : Json)
  | items (js : List Json)
  | field (name : String) (j : Json)
  | fields (fs : List (String × Json))

inductive Written : Phrase → List Char → Prop
  | null : Written (.value .null) ['n', 'u', 'l', 'l']
  | number (n : Nat) : Written (.value (.number n)) (Nat.toDigits 10 n)
  | text {s : String} {cs : List Char} (quoted : Quotes s cs) : Written (.value (.text s)) cs
  | emptyArray {cs : List Char} (blank : ∀ c ∈ cs, isBlank c) :
    Written (.value (.array [])) ('[' :: (cs ++ [']']))
  | array {js : List Json} {cs : List Char} (inside : Written (.items js) cs) :
    Written (.value (.array js)) ('[' :: (cs ++ [']']))
  | emptyObject {cs : List Char} (blank : ∀ c ∈ cs, isBlank c) :
    Written (.value (.object [])) ('\x7b' :: (cs ++ ['\x7d']))
  | object {fs : List (String × Json)} {cs : List Char} (inside : Written (.fields fs) cs) :
    Written (.value (.object fs)) ('\x7b' :: (cs ++ ['\x7d']))
  | element {j : Json} {inner cs : List Char} (value : Written (.value j) inner)
    (padded : Padded inner cs) : Written (.element j) cs
  | lastItem {j : Json} {cs : List Char} (item : Written (.element j) cs) : Written (.items [j]) cs
  | item {j : Json} {js : List Json} {cs rest : List Char} (item : Written (.element j) cs)
    (others : Written (.items js) rest) : Written (.items (j :: js)) (cs ++ ',' :: rest)
  | field {name : String} {j : Json} {inner key cs : List Char} (quoted : Quotes name inner)
    (padded : Padded inner key) (value : Written (.element j) cs) :
    Written (.field name j) (key ++ ':' :: cs)
  | lastField {name : String} {j : Json} {cs : List Char} (first : Written (.field name j) cs) :
    Written (.fields [(name, j)]) cs
  | fields {name : String} {j : Json} {fs : List (String × Json)} {cs rest : List Char}
    (first : Written (.field name j) cs) (others : Written (.fields fs) rest) :
    Written (.fields ((name, j) :: fs)) (cs ++ ',' :: rest)

/-- A whole text that is one value, with blanks around it. -/
def IsText (j : Json) (cs : List Char) : Prop :=
  Written (.element j) cs

/-! ### Strings -/

theorem writesChar_escapeChar (c : Char) : WritesChar c (escapeChar c) := by
  unfold escapeChar
  split_ifs with quote escape back form line cr tab control
  -- the short forms first
  any_goals
    subst c
    exact .short rfl
  · have four : (Text.hexDigits 4 c.toNat).length = 4 :=
      Text.length_hexDigits (by decide) (by omega)
    exact .numbered four (Text.readHex?_hexDigits 4 _)
  · exact .plain (by omega) quote escape

theorem writesChars_escape (cs : List Char) : WritesChars cs (cs.flatMap escapeChar) := by
  induction cs with
  | nil => exact .nil
  | cons c cs ih => exact .cons (writesChar_escapeChar c) ih

theorem quotes_quote (s : String) : Quotes s (quote s) :=
  ⟨_, writesChars_escape s.toList, rfl⟩

/-! ### Values -/

theorem noBlanks : ∀ c ∈ ([] : List Char), isBlank c :=
  List.forall_mem_nil _

theorem isBlank_newLine (depth : Nat) : ∀ c ∈ newLine depth, isBlank c := by
  intro c member
  rcases List.mem_cons.mp member with rfl | space
  · rfl
  · exact (List.eq_of_mem_replicate space) ▸ rfl

theorem padded_self (inner : List Char) : Padded inner inner :=
  ⟨[], [], noBlanks, noBlanks, by simp⟩

theorem Written.element_newLine {j : Json} {cs after : List Char} (value : Written (.value j) cs)
    (depth : Nat) (blank : ∀ c ∈ after, isBlank c) :
    Written (.element j) (newLine depth ++ (cs ++ after)) :=
  .element value ⟨_, _, isBlank_newLine depth, blank, rfl⟩

/-- A key on a line of its own, and its value after a blank. -/
theorem Written.field_newLine {name : String} {j : Json} {cs after : List Char}
    (value : Written (.value j) cs) (depth : Nat) (blank : ∀ c ∈ after, isBlank c) :
    Written (.field name j)
      (newLine depth ++ (quote name ++ (':' :: ' ' :: (cs ++ after)))) := by
  have key : Padded (quote name) (newLine depth ++ (quote name ++ [])) :=
    ⟨_, [], isBlank_newLine depth, noBlanks, rfl⟩
  have element : Written (.element j) ([' '] ++ (cs ++ after)) :=
    .element value ⟨_, _, by simp [isBlank], blank, rfl⟩
  simpa using Written.field (quotes_quote name) key element

mutual

theorem written_printAt (depth : Nat) : ∀ j, Written (.value j) (printAt depth j)
  | .null => by simpa [printAt] using Written.null
  | .number n => by simpa [printAt] using Written.number n
  | .text s => by simpa [printAt] using Written.text (quotes_quote s)
  | .array [] => by simpa [printAt] using Written.emptyArray noBlanks
  | .array (j :: js) => by
    have inside :=
      written_items (depth + 1) js (written_printAt (depth + 1) j) (isBlank_newLine depth)
    simpa [printAt] using Written.array inside
  | .object [] => by simpa [printAt] using Written.emptyObject noBlanks
  | .object ((name, j) :: fs) => by
    have inside :=
      written_fields (depth + 1) fs name (written_printAt (depth + 1) j) (isBlank_newLine depth)
    simpa [printAt] using Written.object inside

/-- An item and the further ones, with a new line before each and blanks at the end. -/
theorem written_items (depth : Nat) : ∀ js {j cs last}, Written (.value j) cs →
    (∀ c ∈ last, isBlank c) →
    Written (.items (j :: js)) (newLine depth ++ (cs ++ (printItems depth js ++ last)))
  | [], _, _, _, value, blank => by
    simpa [printItems] using Written.lastItem (value.element_newLine depth blank)
  | j :: js, _, _, _, value, blank => by
    have item := value.element_newLine depth noBlanks
    have others := written_items depth js (written_printAt depth j) blank
    simpa [printItems] using Written.item item others

/-- A field and the further ones, with a new line before each and blanks at the end. -/
theorem written_fields (depth : Nat) : ∀ fs name {j cs last}, Written (.value j) cs →
    (∀ c ∈ last, isBlank c) →
    Written (.fields ((name, j) :: fs))
      (newLine depth ++ (quote name ++ (':' :: ' ' :: (cs ++ (printFields depth fs ++ last)))))
  | [], _, _, _, _, value, blank => by
    simpa [printFields] using Written.lastField (value.field_newLine depth blank)
  | (next, j) :: fs, name, _, _, _, value, blank => by
    have field : Written (.field name _) _ := value.field_newLine depth noBlanks
    have others := written_fields depth fs next (written_printAt depth j) blank
    simpa [printFields] using Written.fields field others

end

/-- What is printed of a value is a text of it. -/
theorem isText_print (j : Json) : IsText j j.print.toList := by
  rw [print, String.toList_ofList]
  exact .element (written_printAt 0 j) (padded_self _)

end HunkReview.Json
