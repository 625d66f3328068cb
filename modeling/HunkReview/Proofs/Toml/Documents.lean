import HunkReview.Proofs.Toml.Scalars

/-! TOML documents read back. Lines with a bare key and a value each, whose keys are different, are read
as the table of these keys and values, and a comment before them does not count. -/
namespace HunkReview.Toml

/-- A bare key with the text of its value. -/
structure Line where
  key : String
  {text : List Char}
  {value : Value}
  written : Writes text value
  given : key.toList ≠ [] := by decide
  bare : key.toList.all isKeyChar := by decide

namespace Line

def chars (l : Line) : List Char :=
  l.key.toList ++ ' ' :: '=' :: ' ' :: l.text ++ ['\n']

def statement (l : Line) : Statement :=
  .pair [l.key] l.value

def entry (l : Line) : String × Value :=
  (l.key, l.value)

end Line

theorem isSpace_of_isKeyChar {c : Char} (key : isKeyChar c) : isSpace c = false := by
  simp [isSpace, ne_of_kind key (d := ' ') (by decide),
    ne_of_kind key (d := '\t') (by decide)]

theorem dropSpaces_eq_self {cs : List Char} (starts : ∀ c ∈ cs.head?, isSpace c = false) :
    dropSpaces cs = cs := by
  cases cs with
  | nil => rfl
  | cons c cs => exact List.dropWhile_cons_of_neg (Bool.eq_false_iff.mp (starts c rfl))

theorem dropSpaces_space {cs : List Char} (starts : ∀ c ∈ cs.head?, isSpace c = false) :
    dropSpaces (' ' :: cs) = cs :=
  (List.dropWhile_cons_of_pos (by decide)).trans (dropSpaces_eq_self starts)

namespace Line

variable (l : Line) (rest : List Char)

theorem chars_append : l.chars ++ rest =
    l.key.toList ++ ' ' :: '=' :: ' ' :: (l.text ++ '\n' :: rest) := by
  simp [chars]

theorem isKeyChar_of_mem {c : Char} (member : c ∈ l.key.toList) : isKeyChar c :=
  List.all_eq_true.mp l.bare c member

theorem exists_head_key : ∃ c cs, l.key.toList = c :: cs ∧ isKeyChar c := by
  obtain ⟨c, cs, written⟩ := List.exists_cons_of_ne_nil l.given
  exact ⟨c, cs, written, l.isKeyChar_of_mem (written ▸ List.mem_cons_self)⟩

theorem exists_head : ∃ c cs, l.chars = c :: cs ∧ isKeyChar c := by
  obtain ⟨c, cs, written, key⟩ := l.exists_head_key
  refine ⟨c, cs ++ ' ' :: '=' :: ' ' :: l.text ++ ['\n'], ?_, key⟩
  rw [chars, written]
  rfl

theorem noReturn : '\r' ∉ l.chars := by
  have inKey : '\r' ∉ l.key.toList := fun member => absurd (l.isKeyChar_of_mem member) (by decide)
  have inText := l.written.noReturn
  simp [chars, inKey, inText]

/-! ### One line -/

theorem readName_line :
    readName (l.key.toList ++ ' ' :: rest) = some (l.key, ' ' :: rest) := by
  obtain ⟨c, cs, written, first⟩ := l.exists_head_key
  have taken : (l.key.toList ++ ' ' :: rest).takeWhile isKeyChar = l.key.toList := by
    rw [List.takeWhile_append_of_pos fun _ => l.isKeyChar_of_mem,
      List.takeWhile_cons_of_neg (by decide), List.append_nil]
  have left : (l.key.toList ++ ' ' :: rest).dropWhile isKeyChar = ' ' :: rest := by
    rw [List.dropWhile_append_of_pos fun _ => l.isKeyChar_of_mem,
      List.dropWhile_cons_of_neg (by decide)]
  rw [written, List.cons_append] at taken left ⊢
  rw [readName, if_pos first, taken, left, ← written, String.ofList_toList]

/-- The key ends before the equals sign: no dot comes in between. -/
theorem readKey_line :
    readKey (l.key.toList ++ ' ' :: '=' :: rest) = some ([l.key], '=' :: rest) := by
  have before : dropSpaces (l.key.toList ++ ' ' :: '=' :: rest) =
      l.key.toList ++ ' ' :: '=' :: rest := by
    obtain ⟨c, cs, written, first⟩ := l.exists_head_key
    rw [written]
    exact dropSpaces_eq_self fun d same => Option.some.inj same ▸ isSpace_of_isKeyChar first
  have after : dropSpaces (' ' :: '=' :: rest) = '=' :: rest :=
    dropSpaces_space (by simp [isSpace])
  rw [readKey, maxDepth, readSeparated]
  simp [before, readName_line, after, expect]

theorem readPair_line (depth : Nat) :
    readPair (readValue depth) (l.chars ++ rest) = some (([l.key], l.value), '\n' :: rest) := by
  have before : dropSpaces (' ' :: (l.text ++ '\n' :: rest)) = l.text ++ '\n' :: rest := by
    refine dropSpaces_space ?_
    cases written : l.text with
    | nil => simp [isSpace]
    | cons c cs => exact fun d first => l.written.starts d (written ▸ first)
  have after : dropSpaces ('\n' :: rest) = '\n' :: rest :=
    dropSpaces_eq_self (by simp [isSpace])
  simp [readPair, chars_append, readKey_line, expect, before, l.written.reads, after]

theorem readStatement_line : readStatement (l.chars ++ rest) = some (l.statement, rest) := by
  have pair := l.readPair_line rest maxDepth
  have ended : endLine ('\n' :: rest) = some rest := by
    rw [endLine, dropSpaces_eq_self (by simp [isSpace])]
    rfl
  obtain ⟨c, cs, written, key⟩ := l.exists_head
  rw [written, List.cons_append] at pair ⊢
  rw [readStatement.eq_def]
  split
  · next same => exact absurd (List.cons.inj same).1 (ne_of_kind key (by decide))
  · simp [pair, ended, statement]

theorem dropLayout_line : dropLayout false (l.chars ++ rest) = l.chars ++ rest := by
  obtain ⟨c, cs, written, key⟩ := l.exists_head
  rw [written, List.cons_append, dropLayout.eq_def]
  simp [isSpace_of_isKeyChar key, ne_of_kind key (d := '\n') (by decide),
    ne_of_kind key (d := '#') (by decide)]

end Line

/-! ### All lines -/

def document (ls : List Line) : List Char :=
  ls.flatMap Line.chars

/-- What is read depends on the text only from its first statement on. -/
theorem readStatements_congr {cs ds : List Char} (same : dropLayout false cs = dropLayout false ds)
    (fuel : Nat) : readStatements fuel cs = readStatements fuel ds := by
  cases fuel with
  | zero => rfl
  | succ fuel => rw [readStatements, readStatements, same]

theorem readStatements_document (ls : List Line) {fuel : Nat} (enough : ls.length < fuel) :
    readStatements fuel (document ls) = some (ls.map Line.statement) := by
  induction ls generalizing fuel with
  | nil =>
    obtain ⟨fuel, rfl⟩ := Nat.exists_eq_add_of_lt enough
    rfl
  | cons l ls ih =>
    obtain ⟨fuel, rfl⟩ : ∃ more, fuel = more + 1 := ⟨fuel - 1, by omega⟩
    have later : readStatements fuel (document ls) = some (ls.map Line.statement) :=
      ih (by simpa using enough)
    obtain ⟨c, cs, written, -⟩ := l.exists_head
    have whole : document (l :: ls) = l.chars ++ document ls := rfl
    have started : dropLayout false (l.chars ++ document ls) = c :: (cs ++ document ls) := by
      rw [l.dropLayout_line, written, List.cons_append]
    have first := l.readStatement_line (document ls)
    rw [written, List.cons_append] at first
    rw [whole, readStatements, started]
    simp [first, later]

/-- Further keys and their values come after those that are there. -/
theorem run_lines (ls : List Line) (entries : List (String × Value))
    (different : (entries.map Prod.fst ++ ls.map Line.key).Nodup) :
    (ls.map Line.statement).foldlM Draft.run ⟨entries.map fun e => (e.1, .value e.2), []⟩ =
      some ⟨(entries ++ ls.map Line.entry).map fun e => (e.1, .value e.2), []⟩ := by
  induction ls generalizing entries with
  | nil => simp
  | cons l ls ih =>
    have added := ih (entries ++ [l.entry]) (by simpa [Line.entry] using different)
    have new : l.key ∉ entries.map Prod.fst := fun old =>
      (List.nodup_append.mp different).2.2 _ old _ List.mem_cons_self rfl
    have missing : (entries.map fun e => (e.1, Node.value e.2)).lookup l.key = none := by
      rw [List.lookup_eq_none_iff]
      rintro _ member
      obtain ⟨e, old, rfl⟩ := List.mem_map.mp member
      have used : e.1 ∈ entries.map Prod.fst := List.mem_map_of_mem old
      exact bne_iff_ne.mpr fun same : l.key = e.1 => new (same ▸ used)
    have step : Draft.run ⟨entries.map fun e => (e.1, .value e.2), []⟩ l.statement =
        some ⟨(entries ++ [l.entry]).map fun e => (e.1, .value e.2), []⟩ := by
      simp [Draft.run, Line.statement, Line.entry, Entries.descend, Entries.insert, Entries.get?,
        missing]
    rw [List.map_cons, List.foldlM_cons, step, Option.bind_eq_bind, Option.bind_some, added]
    simp

theorem entriesToValues_value (entries : List (String × Value)) :
    entriesToValues (entries.map fun e => (e.1, .value e.2)) = entries := by
  induction entries with
  | nil => rfl
  | cons e entries ih =>
    rw [List.map_cons, entriesToValues, ih]
    rfl

theorem joinLineEnds_eq_self {cs : List Char} (noReturn : '\r' ∉ cs) : joinLineEnds cs = cs := by
  induction cs with
  | nil => rfl
  | cons c cs ih =>
    have other : c ≠ '\r' := fun same => noReturn (same ▸ List.mem_cons_self)
    have later : '\r' ∉ cs := fun member => noReturn (List.mem_cons_of_mem c member)
    rw [joinLineEnds.eq_3 c cs fun _ same _ => other same, ih later]

theorem noReturn_document (ls : List Line) : '\r' ∉ document ls := by
  intro member
  obtain ⟨l, -, inside⟩ := List.mem_flatMap.mp member
  exact l.noReturn inside

theorem length_le_document (ls : List Line) : ls.length ≤ (document ls).length := by
  induction ls with
  | nil => exact Nat.le_refl 0
  | cons l ls ih =>
    obtain ⟨c, cs, written, -⟩ := l.exists_head
    have whole : document (l :: ls) = c :: cs ++ document ls := written ▸ rfl
    rw [whole, List.length_cons, List.length_append, List.length_cons]
    omega

/-- A text whose statements are those of the lines. -/
theorem parse?_of_dropLayout {cs : List Char} {ls : List Line} (unmarked : cs.head? ≠ some '\uFEFF')
    (noReturn : '\r' ∉ cs) (same : dropLayout false cs = dropLayout false (document ls))
    (long : ls.length ≤ cs.length) (different : (ls.map Line.key).Nodup) :
    parse? (String.ofList cs) = some (ls.map Line.entry) := by
  have kept : dropByteOrderMark cs = cs := by
    rw [dropByteOrderMark.eq_def]
    split
    · exact absurd rfl unmarked
    · rfl
  have statements : readStatements (cs.length + 1) cs = some (ls.map Line.statement) := by
    rw [readStatements_congr same, readStatements_document ls (Nat.lt_succ_of_le long)]
  have draft := run_lines ls [] different
  rw [List.map_nil, List.nil_append] at draft
  rw [parse?, String.toList_ofList, kept, joinLineEnds_eq_self noReturn]
  simp only [statements, draft, Option.bind_eq_bind, Option.bind_some, entriesToValues_value,
    Option.pure_def]

theorem parse?_document {ls : List Line} (different : (ls.map Line.key).Nodup) :
    parse? (String.ofList (document ls)) = some (ls.map Line.entry) := by
  refine parse?_of_dropLayout ?_ (noReturn_document ls) rfl (length_le_document ls) different
  cases ls with
  | nil => exact nofun
  | cons l ls =>
    obtain ⟨c, cs, written, key⟩ := l.exists_head
    have whole : document (l :: ls) = c :: cs ++ document ls := written ▸ rfl
    rw [whole]
    exact fun mark => ne_of_kind key (by decide) (Option.some.inj mark)

/-! ### A comment before the lines -/

def comment (cs : List Char) : List Char :=
  '#' :: cs ++ ['\n']

variable {cs : List Char} (plain : ∀ c ∈ cs, isPlain c)
include plain

theorem dropLayout_comment (rest : List Char) :
    dropLayout false (comment cs ++ rest) = dropLayout false rest := by
  have inside : dropLayout true (cs ++ '\n' :: rest) = dropLayout false rest := by
    induction cs with
    | nil => rfl
    | cons c cs ih =>
      obtain ⟨first, later⟩ := List.forall_mem_cons.mp plain
      have sameLine : c ≠ '\n' := fun feed => absurd (feed ▸ first) (by decide)
      rw [List.cons_append, dropLayout, if_pos rfl, if_neg sameLine, if_pos first, ih later]
  rw [comment, List.append_assoc]
  exact inside

theorem parse?_comment_document {ls : List Line} (different : (ls.map Line.key).Nodup) :
    parse? (String.ofList (comment cs ++ document ls)) = some (ls.map Line.entry) := by
  refine parse?_of_dropLayout (by simp [comment]) ?_ (dropLayout_comment plain _) ?_ different
  · have inside : '\r' ∉ cs := fun member => absurd (plain _ member) (by decide)
    simp [comment, inside, noReturn_document]
  · rw [List.length_append]
    exact (length_le_document ls).trans (Nat.le_add_left _ _)

end HunkReview.Toml
