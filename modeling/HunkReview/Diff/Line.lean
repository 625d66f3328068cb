/-!
# Lines of a hunk

A body line is a kind and a content; the kind's marker and the content together are the line as
the diff has it. Line numbers and line counts stop at `2 ^ 32 - 1`.
-/

namespace HunkReview

/-- A line number, or a number of lines. -/
structure LineNo where
  val : Nat
  le_max : val ≤ 4294967295 := by omega
  deriving DecidableEq, Repr

namespace LineNo

def max : Nat := 4294967295

/-- The number itself, or the largest line number when it is too large. -/
def clamp (n : Nat) : LineNo where
  val := min n max
  le_max := Nat.min_le_right n max

def ofNat? (n : Nat) : Option LineNo :=
  if h : n ≤ 4294967295 then some ⟨n, h⟩ else none

def next (n : LineNo) : LineNo :=
  clamp (n.val + 1)

/-- The last of `count` lines that start at `first`; the first line when there are none. -/
def last (first count : LineNo) : LineNo :=
  clamp (first.val + (count.val - 1))

def render (n : LineNo) : String :=
  toString n.val

@[simp] theorem val_clamp (n : Nat) : (clamp n).val = min n 4294967295 := rfl

@[simp] theorem val_next (n : LineNo) : n.next.val = min (n.val + 1) 4294967295 := rfl

@[ext] theorem ext {a b : LineNo} (h : a.val = b.val) : a = b := by
  cases a; cases b; simp_all

end LineNo

inductive LineKind where
  | context
  | addition
  | deletion
  deriving DecidableEq, Repr

namespace LineKind

def marker : LineKind → Char
  | context => ' '
  | addition => '+'
  | deletion => '-'

def ofMarker? : Char → Option LineKind
  | ' ' => some context
  | '+' => some addition
  | '-' => some deletion
  | _ => none

@[simp] theorem ofMarker?_marker (k : LineKind) : ofMarker? k.marker = some k := by
  cases k <;> rfl

theorem marker_of_ofMarker? {c : Char} {k : LineKind} (h : ofMarker? c = some k) :
    k.marker = c := by
  unfold ofMarker? at h
  split at h <;> simp_all [marker] <;> subst h <;> rfl

end LineKind

structure DiffLine where
  kind : LineKind
  content : String
  deriving DecidableEq, Repr

def DiffLine.text (l : DiffLine) : String :=
  String.ofList (l.kind.marker :: l.content.toList)

/-- A body line with its numbers: an added line has no old number, a deleted line no new one. -/
structure NumberedLine where
  kind : LineKind
  oldLine : Option LineNo
  newLine : Option LineNo
  content : String
  deriving DecidableEq, Repr

/-- Number body lines from the given counters. Context lines advance both, deletions the old one
and additions the new one. -/
def numberFrom : LineNo → LineNo → List DiffLine → List NumberedLine
  | _, _, [] => []
  | old, new, l :: ls =>
    match l.kind with
    | .context => ⟨.context, some old, some new, l.content⟩ :: numberFrom old.next new.next ls
    | .deletion => ⟨.deletion, some old, none, l.content⟩ :: numberFrom old.next new ls
    | .addition => ⟨.addition, none, some new, l.content⟩ :: numberFrom old new.next ls

end HunkReview
