import HunkReview.Diff.Parser
import HunkReview.Proofs.Text.Lines

/-! The lines that a reader of diffs tells apart, described by what is written on them. A file line
is `diff --git a/… b/…`; where ` b/` occurs more than once, its last occurrence with text on both
sides is the one before the path. -/
namespace HunkReview

structure Parted (cs old path : List Char) : Prop where
  text : cs = old ++ (" b/".toList ++ path)
  old_ne : old ≠ []
  path_ne : path ≠ []

/-- The line is `diff --git a/old b/path`, with something in both places. -/
def NamesPaths (line old path : List Char) : Prop :=
  ∃ cs, line = "diff --git a/".toList ++ cs ∧ Parted cs old path

def IsFileLine (line : List Char) : Prop :=
  ∃ old path, NamesPaths line old path

/-- The file of a file line: the old path is taken as long as it can be. -/
def NamesFile (line path : List Char) : Prop :=
  ∃ old, NamesPaths line old path ∧
    ∀ other rest, NamesPaths line other rest → other.length ≤ old.length

theorem not_parted_nil (old path : List Char) : ¬Parted [] old path := by
  intro parted
  have empty := (List.append_eq_nil_iff.mp parted.text.symm).1
  exact parted.old_ne empty

theorem parted_cons_iff {c : Char} {cs old path : List Char} :
    Parted (c :: cs) old path ↔
      (old = [c] ∧ cs = " b/".toList ++ path ∧ path ≠ []) ∨
      (∃ rest, old = c :: rest ∧ Parted cs rest path) := by
  constructor
  · rintro ⟨text, oldNe, pathNe⟩
    cases old with
    | nil => exact absurd rfl oldNe
    | cons d rest =>
      obtain ⟨rfl, tail⟩ := List.cons_eq_cons.mp (text.trans (List.cons_append ..))
      by_cases empty : rest = []
      · subst empty
        exact .inl ⟨rfl, tail, pathNe⟩
      · exact .inr ⟨rest, rfl, tail, empty, pathNe⟩
  · rintro (⟨rfl, rfl, pathNe⟩ | ⟨rest, rfl, parted⟩)
    · exact ⟨rfl, by simp, pathNe⟩
    · exact ⟨by rw [parted.text, List.cons_append], by simp, parted.path_ne⟩

theorem newSidePath?_eq_none {cs : List Char} (missing : newSidePath? cs = none)
    (old path : List Char) : ¬Parted cs old path := by
  induction cs generalizing old with
  | nil => exact not_parted_nil old path
  | cons c cs ih =>
    rw [newSidePath?] at missing
    cases later : newSidePath? cs with
    | some q => simp [later] at missing
    | none =>
      rw [parted_cons_iff]
      rintro (⟨-, rfl, pathNe⟩ | ⟨rest, -, parted⟩)
      · obtain ⟨d, tail, rfl⟩ := List.exists_cons_of_ne_nil pathNe
        rw [later, Text.stripStart?_append] at missing
        cases missing
      · exact ih later rest parted

theorem newSidePath?_eq_some {cs path : List Char} (found : newSidePath? cs = some path) :
    ∃ old, Parted cs old path ∧ ∀ other rest, Parted cs other rest → other.length ≤ old.length := by
  induction cs generalizing path with
  | nil => simp [newSidePath?] at found
  | cons c cs ih =>
    rw [newSidePath?] at found
    cases later : newSidePath? cs with
    | some q =>
      obtain rfl : q = path := by simpa [later] using found
      obtain ⟨old, parted, longest⟩ := ih later
      refine ⟨c :: old, parted_cons_iff.mpr (.inr ⟨old, rfl, parted⟩), fun other rest h => ?_⟩
      rcases parted_cons_iff.mp h with ⟨rfl, -, -⟩ | ⟨tail, rfl, inner⟩
      · simp
      · simpa using longest tail rest inner
    | none =>
      have here : cs = " b/".toList ++ path ∧ path ≠ [] := by
        rw [later] at found
        dsimp only at found
        split at found
        next d tail start =>
          cases found
          exact ⟨Text.stripStart?_eq_some_iff.mp start, by simp⟩
        next => cases found
      refine ⟨[c], parted_cons_iff.mpr (.inl ⟨rfl, here⟩), fun other rest h => ?_⟩
      rcases parted_cons_iff.mp h with ⟨rfl, -, -⟩ | ⟨tail, -, inner⟩
      · exact Nat.le_refl _
      · exact absurd inner (newSidePath?_eq_none later tail rest)

/-- The longest old path determines the file. -/
theorem NamesFile.unique {line path other : List Char} (h : NamesFile line path)
    (g : NamesFile line other) : path = other := by
  obtain ⟨old, ⟨cs, rfl, parted⟩, longest⟩ := h
  obtain ⟨old', ⟨cs', same, parted'⟩, longest'⟩ := g
  obtain rfl : cs = cs' := List.append_cancel_left same
  have length : old.length = old'.length :=
    Nat.le_antisymm (longest' _ _ ⟨cs, rfl, parted⟩) (longest _ _ ⟨cs, rfl, parted'⟩)
  have tails := List.append_inj_right (parted.text.symm.trans parted'.text) length
  exact List.append_cancel_left tails

theorem namesFile_of_filePath? {line : List Char} {path : String} (found : filePath? line = some path) :
    NamesFile line path.toList := by
  unfold filePath? at found
  split at found
  next cs start =>
    obtain rfl := Text.stripStart?_eq_some_iff.mp start
    obtain ⟨cs', here, rfl⟩ := Option.map_eq_some_iff.mp found
    obtain ⟨old, parted, longest⟩ := newSidePath?_eq_some here
    have written : (String.ofList cs').toList = cs' := String.toList_ofList
    rw [written]
    refine ⟨old, ⟨cs, rfl, parted⟩, fun other rest names => ?_⟩
    obtain ⟨ds, same, parted'⟩ := names
    exact longest other rest (List.append_cancel_left same ▸ parted')
  next => cases found

theorem not_isFileLine_of_filePath? {line : List Char} (missing : filePath? line = none) :
    ¬IsFileLine line := by
  rintro ⟨old, path, cs, rfl, parted⟩
  simp only [filePath?, Text.stripStart?_append, Option.map_eq_none_iff] at missing
  exact newSidePath?_eq_none missing old path parted

theorem NamesFile.isFileLine {line path : List Char} (h : NamesFile line path) : IsFileLine line :=
  let ⟨old, names, _⟩ := h
  ⟨old, path, names⟩

theorem filePath?_eq_none_iff {line : List Char} : filePath? line = none ↔ ¬IsFileLine line := by
  refine ⟨not_isFileLine_of_filePath?, fun other => ?_⟩
  cases found : filePath? line with
  | none => rfl
  | some path => exact absurd (namesFile_of_filePath? found).isFileLine other

theorem filePath?_eq_some_iff {line : List Char} {path : String} :
    filePath? line = some path ↔ NamesFile line path.toList := by
  refine ⟨namesFile_of_filePath?, fun names => ?_⟩
  cases found : filePath? line with
  | none => exact absurd names.isFileLine (not_isFileLine_of_filePath? found)
  | some other =>
    have same := (namesFile_of_filePath? found).unique names
    exact congrArg some (String.toList_injective same)

theorem startsWith_iff {start cs : List Char} : startsWith start cs ↔ start <+: cs :=
  Text.stripStart?_isSome_iff

theorem isHunkLine_iff {line : List Char} : isHunkLine line ↔ "@@".toList <+: line :=
  startsWith_iff

end HunkReview
