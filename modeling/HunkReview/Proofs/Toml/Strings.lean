import HunkReview.Proofs.Text.Lines
import HunkReview.Proofs.Text.Runs
import Mathlib.Tactic.SplitIfs

/-! TOML strings read back. Whichever quotes a text is written with, the reader finds the text between
them again: escapes stand for the characters that they were written for, and no quote of the text is
taken for the closing ones. -/
namespace HunkReview.Toml

/-! ### Escapes -/

/-- What stands for a character after a backslash. -/
inductive EscapesTo (c : Char) : List Char → Prop
  | short {e : Char} (known : shortEscape? e = some c) : EscapesTo c [backslash, e]
  | numbered {x₁ x₂ x₃ x₄ : Char} (known : ofHex? [x₁, x₂, x₃, x₄] = some c) :
    EscapesTo c [backslash, 'u', x₁, x₂, x₃, x₄]

/-- Escapes by number are only needed for characters of one byte. -/
theorem ofHex?_hexDigits {n : Nat} (small : n < 128) :
    ofHex? ((Text.hexDigits 4 n).map Char.toUpper) = some (Char.ofNat n) ∧
      ((Text.hexDigits 4 n).map Char.toUpper).length = 4 := by
  have all : ∀ n : Fin 128, ofHex? ((Text.hexDigits 4 n.val).map Char.toUpper) =
      some (Char.ofNat n.val) ∧ ((Text.hexDigits 4 n.val).map Char.toUpper).length = 4 := by
    decide +kernel
  exact all ⟨n, small⟩

theorem escapesTo_escapeControl {c : Char} (small : c.toNat < 128) :
    EscapesTo c (escapeControl c) := by
  unfold escapeControl
  split_ifs
  any_goals
    subst c
    exact .short rfl
  · obtain ⟨number, four⟩ := ofHex?_hexDigits small
    obtain ⟨x₁, x₂, x₃, x₄, digits⟩ := List.length_eq_four.mp four
    rw [digits, Char.ofNat_toNat] at number
    rw [digits]
    exact .numbered number

/-- Neither a letter that is escaped with nor a digit is a blank, a line feed or one of the marks of a
number. -/
theorem shortEscape?_other {e c : Char} (known : shortEscape? e = some c) :
    isSpace e = false ∧ e ≠ '\n' ∧ e ≠ 'u' ∧ e ≠ 'U' ∧ e ≠ '\r' := by
  have not (d : Char) (unknown : shortEscape? d = none) : e ≠ d := by
    rintro rfl
    rw [unknown] at known
    cases known
  refine ⟨?_, not _ rfl, not _ rfl, not _ rfl, not _ rfl⟩
  simp [isSpace, not ' ' rfl, not '\t' rfl]

theorem EscapesTo.head {c : Char} {written : List Char} (escapes : EscapesTo c written) :
    ∃ rest, written = backslash :: rest := by
  cases escapes <;> exact ⟨_, rfl⟩

theorem EscapesTo.readBasic {c : Char} {written : List Char} (escapes : EscapesTo c written)
    (rest : List Char) : readBasic (written ++ rest) = prepend (some c) (readBasic rest) := by
  cases escapes with
  | @short e known =>
    obtain ⟨-, -, noU, noLongU, -⟩ := shortEscape?_other known
    rw [← known, List.cons_append, Toml.readBasic.eq_def]
    simp [backslash, basicQuote, noU, noLongU]
  | numbered known =>
    rw [← known, List.cons_append, Toml.readBasic.eq_def]
    simp [backslash, basicQuote]

theorem EscapesTo.readBasicBlock {c : Char} {written : List Char} (escapes : EscapesTo c written)
    (rest : List Char) :
    readBasicBlock false (written ++ rest) = prepend (some c) (readBasicBlock false rest) := by
  cases escapes with
  | @short e known =>
    obtain ⟨noSpace, noFeed, noU, noLongU, -⟩ := shortEscape?_other known
    rw [← known, List.cons_append, Toml.readBasicBlock.eq_def]
    simp [backslash, basicQuote, noSpace, noFeed, noU, noLongU]
  | numbered known =>
    rw [← known, List.cons_append, Toml.readBasicBlock.eq_def]
    simp [backslash, basicQuote, isSpace]

/-! ### Characters as they are -/

theorem readBasic_plain {c : Char} (noQuote : c ≠ basicQuote) (noEscape : c ≠ backslash)
    (plain : isPlain c) (rest : List Char) :
    readBasic (c :: rest) = prepend (some c) (readBasic rest) := by
  rw [readBasic.eq_def]
  simp [noQuote, noEscape, plain]

theorem readBasicBlock_plain {c : Char} (noQuote : c ≠ basicQuote) (noEscape : c ≠ backslash)
    (plain : isPlain c ∨ c = '\n') (rest : List Char) :
    readBasicBlock false (c :: rest) = prepend (some c) (readBasicBlock false rest) := by
  rw [readBasicBlock.eq_def]
  simp [noQuote, noEscape, plain]

theorem readBasicBlock_quote (rest : List Char) :
    readBasicBlock false (basicQuote :: rest) =
      (blockEnd? basicQuote (basicQuote :: rest)).or
        (prepend (some basicQuote) (readBasicBlock false rest)) := by
  rw [readBasicBlock.eq_def]
  cases ended : blockEnd? basicQuote (basicQuote :: rest) <;> simp [ended]

theorem readLiteralBlock_quote (rest : List Char) :
    readLiteralBlock (literalQuote :: rest) =
      (blockEnd? literalQuote (literalQuote :: rest)).or
        (prepend (some literalQuote) (readLiteralBlock rest)) := by
  rw [readLiteralBlock.eq_def]
  cases ended : blockEnd? literalQuote (literalQuote :: rest) <;> simp [ended]

/-! ### Quotes at the end of a block -/

section

variable {q : Char} {rest : List Char}

theorem countQuotes_replicate (stop : rest.head? ≠ some q) (n : Nat) :
    countQuotes q (List.replicate n q ++ rest) = n := by
  have ended : rest.takeWhile (· == q) = [] := by
    cases rest with
    | nil => rfl
    | cons c cs =>
      have other : c ≠ q := by simpa using stop
      simp [other]
  rw [countQuotes, List.takeWhile_append_of_pos (by simp +contextual [List.mem_replicate]), ended]
  simp

theorem blockEnd?_of_few {cs : List Char} (few : countQuotes q cs < 3) : blockEnd? q cs = none :=
  if_pos few

/-- Up to two quotes right before the closing ones belong to the text. -/
theorem blockEnd?_replicate (stop : rest.head? ≠ some q) {n : Nat} (few : n ≤ 2) :
    blockEnd? q (List.replicate (n + 3) q ++ rest) = some (List.replicate n q, rest) := by
  rw [blockEnd?, countQuotes_replicate stop, if_neg (by omega),
    show min (n + 3 - 3) 2 = n by omega, show min (n + 3) 5 = n + 3 by omega]
  simp

/-- Quotes that are left at the end of a text are read together with the closing ones. -/
theorem read_lastQuotes {read : List Char → Option (List Char × List Char)}
    (atQuote : ∀ more, read (q :: more) =
      (blockEnd? q (q :: more)).or (prepend (some q) (read more)))
    (stop : rest.head? ≠ some q) {n : Nat} (few : n ≤ 2) :
    read (List.replicate n q ++ (List.replicate 3 q ++ rest)) = some (List.replicate n q, rest) := by
  have ended := blockEnd?_replicate stop few
  rw [← List.append_assoc, List.replicate_append_replicate]
  rw [List.replicate_succ, List.cons_append] at ended ⊢
  rw [atQuote, ended]
  rfl

/-- A text without three quotes in a row has only a few quotes, or something after the first few. -/
theorem few_quotes {cs : List Char} (runs : ∀ n, List.replicate n q <:+: cs → n ≤ 2) :
    (∃ n ≤ 2, cs = List.replicate n q) ∨ ∀ tail, countQuotes q (cs ++ tail) ≤ 2 := by
  have quotes : cs.takeWhile (· == q) = List.replicate (countQuotes q cs) q :=
    List.eq_replicate_iff.mpr ⟨rfl, fun c member => by simpa using List.mem_takeWhile_imp member⟩
  have short : countQuotes q cs ≤ 2 := by
    apply runs
    rw [← quotes]
    exact (List.takeWhile_prefix _).isInfix
  by_cases all : (cs.takeWhile (· == q)).length = cs.length
  · refine .inl ⟨countQuotes q cs, short, ?_⟩
    rw [← quotes]
    exact ((List.takeWhile_prefix _).eq_of_length all).symm
  · right
    intro tail
    rw [countQuotes, List.takeWhile_append, if_neg all]
    exact short

end

/-! ### Literal strings -/

theorem readLiteral_append {cs : List Char} (plain : ∀ c ∈ cs, isPlain c ∧ c ≠ literalQuote)
    (rest : List Char) : readLiteral (cs ++ literalQuote :: rest) = some (cs, rest) := by
  induction cs with
  | nil => simp [readLiteral]
  | cons c cs ih =>
    obtain ⟨⟨plain, other⟩, later⟩ := List.forall_mem_cons.mp plain
    rw [List.cons_append, readLiteral, if_neg other, if_pos plain, ih later]
    rfl

theorem readLiteralBlock_append {cs rest : List Char} (plain : ∀ c ∈ cs, isPlain c ∨ c = '\n')
    (runs : ∀ n, List.replicate n literalQuote <:+: cs → n ≤ 2)
    (stop : rest.head? ≠ some literalQuote) :
    readLiteralBlock (cs ++ (List.replicate 3 literalQuote ++ rest)) = some (cs, rest) := by
  induction cs with
  | nil => exact read_lastQuotes readLiteralBlock_quote stop (Nat.zero_le 2)
  | cons c cs ih =>
    obtain ⟨first, later⟩ := List.forall_mem_cons.mp plain
    have below := ih later fun n stretch => runs n (stretch.trans (List.suffix_cons c cs).isInfix)
    by_cases quote : c = literalQuote
    · subst quote
      rcases few_quotes runs with ⟨n, few, all⟩ | few
      · rw [all]
        exact read_lastQuotes readLiteralBlock_quote stop few
      · have open_ := blockEnd?_of_few (Nat.lt_succ_of_le (few (List.replicate 3 literalQuote ++ rest)))
        rw [List.cons_append] at open_ ⊢
        rw [readLiteralBlock_quote, open_, below]
        rfl
    · rw [List.cons_append, readLiteralBlock, if_neg quote, if_pos (by simpa using first), below]
      rfl

/-! ### Basic strings -/

inductive Begins (block : Bool) (spare run : Nat) (c : Char) (cs : List Char) : List Char → Prop
  | quote (bare : run < spare) (same : c = basicQuote) :
    Begins block spare run c cs (c :: escapeBasic block spare (run + 1) cs)
  | feed (inBlock : block) (same : c = '\n') :
    Begins block spare run c cs (c :: escapeBasic block spare 0 cs)
  | plain (noQuote : c ≠ basicQuote) (noEscape : c ≠ backslash) (plain : isPlain c) :
    Begins block spare run c cs (c :: escapeBasic block spare 0 cs)
  | escaped {written : List Char} (escapes : EscapesTo c written) :
    Begins block spare run c cs (written ++ escapeBasic block spare 0 cs)

theorem begins_escapeBasic (block : Bool) (spare run : Nat) (c : Char) (cs : List Char) :
    Begins block spare run c cs (escapeBasic block spare run (c :: cs)) := by
  rw [escapeBasic]
  split_ifs with quote bare escape feed control
  · exact .quote bare quote
  · exact .escaped (.short (by subst c; rfl))
  · exact .escaped (.short (by subst c; rfl))
  · exact .feed feed.2 feed.1
  · exact .escaped (escapesTo_escapeControl (by omega))
  · exact .plain quote escape (by simp [isPlain]; omega)

/-- On one line every quote is escaped. -/
theorem readBasic_escapeBasic (cs rest : List Char) :
    readBasic (escapeBasic false 0 0 cs ++ basicQuote :: rest) = some (cs, rest) := by
  induction cs with
  | nil =>
    rw [escapeBasic, List.nil_append, readBasic.eq_def]
    simp
  | cons c cs ih =>
    have begins := begins_escapeBasic false 0 0 c cs
    generalize escapeBasic false 0 0 (c :: cs) = whole at begins
    cases begins with
    | quote bare => exact absurd bare (Nat.not_lt_zero 0)
    | feed inBlock => cases inBlock
    | plain noQuote noEscape plain =>
      rw [List.cons_append, readBasic_plain noQuote noEscape plain, ih]
      rfl
    | escaped escapes =>
      rw [List.append_assoc, escapes.readBasic, ih]
      rfl

/-- In a block no more quotes stand together than may: after the first few, or at the end of the text,
there is an escape or another character. -/
theorem few_quotes_escapeBasic (run : Nat) (within : run ≤ 2) (cs : List Char) :
    (∃ n, n + run ≤ 2 ∧ cs = List.replicate n basicQuote ∧
        escapeBasic true 2 run cs = List.replicate n basicQuote) ∨
      ∀ tail, countQuotes basicQuote (escapeBasic true 2 run cs ++ tail) + run ≤ 2 := by
  induction cs generalizing run with
  | nil => exact .inl ⟨0, by omega, rfl, rfl⟩
  | cons c cs ih =>
    have begins := begins_escapeBasic true 2 run c cs
    generalize whole : escapeBasic true 2 run (c :: cs) = written at begins
    cases begins with
    | quote bare same =>
      subst same
      rcases ih (run + 1) bare with ⟨n, few, all, same⟩ | few
      · exact .inl ⟨n + 1, by omega, by rw [all]; rfl, by rw [same]; rfl⟩
      · right
        intro tail
        have := few tail
        simp only [countQuotes, List.cons_append, List.takeWhile_cons, beq_self_eq_true, if_true,
          List.length_cons] at this ⊢
        omega
    | feed _ same =>
      subst same
      exact .inr fun tail => by simpa [countQuotes, basicQuote] using within
    | plain noQuote => exact .inr fun tail => by simpa [countQuotes, noQuote] using within
    | escaped escapes =>
      obtain ⟨rest, rfl⟩ := escapes.head
      exact .inr fun tail => by simpa [countQuotes, backslash, basicQuote] using within

theorem readBasicBlock_escapeBasic {rest : List Char} (stop : rest.head? ≠ some basicQuote)
    (run : Nat) (within : run ≤ 2) (cs : List Char) :
    readBasicBlock false
        (escapeBasic true 2 run cs ++ (List.replicate 3 basicQuote ++ rest)) = some (cs, rest) := by
  induction cs generalizing run with
  | nil => exact read_lastQuotes readBasicBlock_quote stop (Nat.zero_le 2)
  | cons c cs ih =>
    have lead := few_quotes_escapeBasic run within (c :: cs)
    have begins := begins_escapeBasic true 2 run c cs
    generalize whole : escapeBasic true 2 run (c :: cs) = written at begins lead
    cases begins with
    | quote bare same =>
      subst same
      rcases lead with ⟨n, few, all, same⟩ | few
      · rw [same, all]
        exact read_lastQuotes readBasicBlock_quote stop (by omega)
      · have open_ := few (List.replicate 3 basicQuote ++ rest)
        rw [List.cons_append] at open_ ⊢
        rw [readBasicBlock_quote, blockEnd?_of_few (by omega), ih (run + 1) bare]
        rfl
    | feed _ same =>
      subst same
      rw [List.cons_append, readBasicBlock_plain (by decide) (by decide) (.inr rfl), ih 0 (by omega)]
      rfl
    | plain noQuote noEscape plain =>
      rw [List.cons_append, readBasicBlock_plain noQuote noEscape (.inl plain), ih 0 (by omega)]
      rfl
    | escaped escapes =>
      rw [List.append_assoc, escapes.readBasicBlock, ih 0 (by omega)]
      rfl

/-! ### Strings of all kinds -/

theorem isPlain_of_not_needsEscape {c : Char} (bare : needsEscape c = false) :
    isPlain c ∨ c = '\n' := by
  by_cases feed : c = '\n'
  · exact .inr feed
  by_cases tab : c = '\t'
  · exact .inl (by rw [tab]; rfl)
  have printable : 0x20 ≤ c.toNat ∧ c.toNat ≠ 0x7F := by simpa [needsEscape, feed, tab] using bare
  exact .inl (by simpa [isPlain] using .inr printable)

/-- A text is put between literal quotes only when it has none and nothing in it needs an escape. -/
theorem quoting_literal {cs : List Char} (chosen : quoting cs = .literal) :
    ∀ c ∈ cs, isPlain c ∧ c ≠ literalQuote := by
  unfold quoting at chosen
  dsimp only at chosen
  split_ifs at chosen with basic literal
  simp only [Bool.and_eq_true, Bool.not_eq_true', List.any_eq_false, decide_eq_true_eq] at literal
  obtain ⟨⟨controls, feeds⟩, quotes⟩ := literal
  intro c member
  have feed : c ≠ '\n' := by
    rintro rfl
    simp [member] at feeds
  refine ⟨(isPlain_of_not_needsEscape (by simpa using controls c member)).resolve_right feed, ?_⟩
  rintro rfl
  have one : List.replicate 1 literalQuote <:+: cs := (List.singleton_infix_iff _ cs).mpr member
  have counted := Text.le_longestRun one 0
  omega

theorem quoting_literalBlock {cs : List Char} (chosen : quoting cs = .literalBlock) :
    (∀ c ∈ cs, isPlain c ∨ c = '\n') ∧
      ∀ n, List.replicate n literalQuote <:+: cs → n ≤ 2 := by
  unfold quoting at chosen
  dsimp only at chosen
  split_ifs at chosen with basic literal basicBlock literalBlock
  simp only [Bool.and_eq_true, Bool.not_eq_true', List.any_eq_false, decide_eq_true_eq] at literalBlock
  obtain ⟨controls, quotes⟩ := literalBlock
  exact ⟨fun c member => isPlain_of_not_needsEscape (by simpa using controls c member),
    fun n stretch => (Text.le_longestRun stretch 0).trans quotes⟩

/-- The line feed that a block begins with is taken off, and no other. -/
theorem dropLineFeed_blockStart {cs written : List Char}
    (same : '\n' ∉ cs → written.head? ≠ some '\n') :
    dropLineFeed (blockStart cs ++ written) = written := by
  unfold blockStart
  split
  · rfl
  · next none =>
    have other := same (by simpa using none)
    unfold dropLineFeed
    split
    · next feed => exact absurd (congrArg List.head? feed) other
    · rfl

/-- What is written begins with a quote only where quotes may stand, and with a line feed only where
the text does. -/
theorem exists_head_escapeBasic (block : Bool) (spare : Nat) (c : Char) (cs : List Char) :
    ∃ d ds, escapeBasic block spare 0 (c :: cs) = d :: ds ∧
      (spare = 0 → d ≠ basicQuote) ∧ (c ≠ '\n' → d ≠ '\n') := by
  have begins := begins_escapeBasic block spare 0 c cs
  generalize escapeBasic block spare 0 (c :: cs) = whole at begins
  cases begins with
  | quote bare same => exact ⟨_, _, rfl, fun none => by omega, id⟩
  | feed _ same =>
    subst same
    exact ⟨_, _, rfl, fun _ => by decide, id⟩
  | plain noQuote => exact ⟨_, _, rfl, fun _ => noQuote, id⟩
  | escaped escapes =>
    obtain ⟨rest, rfl⟩ := escapes.head
    exact ⟨_, _, rfl, fun _ => by decide, fun _ => by decide⟩

theorem stripStart?_eq_none {q : Char} {cs : List Char} (other : cs.head? ≠ some q) (more : List Char) :
    Text.stripStart? (q :: more) cs = none := by
  cases cs with
  | nil => rfl
  | cons c cs =>
    have different : c ≠ q := by simpa using other
    rw [Text.stripStart?, if_neg different.symm]

theorem readString_basic {rest : List Char} (stop : rest.head? ≠ some basicQuote) (cs : List Char) :
    readString (basicQuote :: (escapeBasic false 0 0 cs ++ basicQuote :: rest)) =
      some (String.ofList cs, rest) := by
  -- an empty text is two quotes, and what follows is not a third
  have noBlock : Text.stripStart? [basicQuote, basicQuote]
      (escapeBasic false 0 0 cs ++ basicQuote :: rest) = none := by
    cases cs with
    | nil => simp [escapeBasic, Text.stripStart?, stripStart?_eq_none stop]
    | cons c cs =>
      obtain ⟨d, ds, written, other, -⟩ := exists_head_escapeBasic false 0 c cs
      rw [written]
      exact stripStart?_eq_none (by simpa using other rfl) _
  have noLiteral : Text.stripStart? [literalQuote, literalQuote, literalQuote]
      (basicQuote :: (escapeBasic false 0 0 cs ++ basicQuote :: rest)) = none :=
    stripStart?_eq_none (by simp [basicQuote, literalQuote]) _
  rw [readString, Text.stripStart?, if_pos rfl, noBlock, noLiteral]
  simp [readLineString, readBasic_escapeBasic]

theorem readString_literal {cs rest : List Char} (plain : ∀ c ∈ cs, isPlain c ∧ c ≠ literalQuote)
    (stop : rest.head? ≠ some literalQuote) :
    readString (literalQuote :: (cs ++ literalQuote :: rest)) = some (String.ofList cs, rest) := by
  have noBlock : Text.stripStart? [literalQuote, literalQuote] (cs ++ literalQuote :: rest) = none := by
    cases cs with
    | nil => simp [Text.stripStart?, stripStart?_eq_none stop]
    | cons c cs =>
      exact stripStart?_eq_none (by simpa using (plain c List.mem_cons_self).2) _
  have noBasic : Text.stripStart? [basicQuote, basicQuote, basicQuote]
      (literalQuote :: (cs ++ literalQuote :: rest)) = none :=
    stripStart?_eq_none (by simp [basicQuote, literalQuote]) _
  rw [readString, noBasic, Text.stripStart?, if_pos rfl, noBlock]
  dsimp only
  rw [readLineString, if_neg (by decide), if_pos rfl, readLiteral_append plain]
  rfl

theorem readString_basicBlock {rest : List Char} (stop : rest.head? ≠ some basicQuote)
    (cs : List Char) :
    readString (List.replicate 3 basicQuote ++ (blockStart cs ++
        (escapeBasic true 2 0 cs ++ (List.replicate 3 basicQuote ++ rest)))) =
      some (String.ofList cs, rest) := by
  have inside : dropLineFeed (blockStart cs ++
        (escapeBasic true 2 0 cs ++ (List.replicate 3 basicQuote ++ rest))) =
      escapeBasic true 2 0 cs ++ (List.replicate 3 basicQuote ++ rest) := by
    refine dropLineFeed_blockStart fun free => ?_
    cases cs with
    | nil => simp [escapeBasic, List.replicate_succ, basicQuote]
    | cons c cs =>
      obtain ⟨d, ds, written, -, other⟩ := exists_head_escapeBasic true 2 c cs
      rw [written]
      simpa using other fun feed => free (feed ▸ List.mem_cons_self)
  have start (more : List Char) :
      Text.stripStart? [basicQuote, basicQuote, basicQuote] (List.replicate 3 basicQuote ++ more) =
        some more := Text.stripStart?_append _ more
  rw [readString, start]
  dsimp only
  rw [inside, readBasicBlock_escapeBasic stop 0 (by omega)]
  rfl

theorem readString_literalBlock {cs rest : List Char} (plain : ∀ c ∈ cs, isPlain c ∨ c = '\n')
    (runs : ∀ n, List.replicate n literalQuote <:+: cs → n ≤ 2)
    (stop : rest.head? ≠ some literalQuote) :
    readString (List.replicate 3 literalQuote ++
        (blockStart cs ++ (cs ++ (List.replicate 3 literalQuote ++ rest)))) =
      some (String.ofList cs, rest) := by
  have inside : dropLineFeed
        (blockStart cs ++ (cs ++ (List.replicate 3 literalQuote ++ rest))) =
      cs ++ (List.replicate 3 literalQuote ++ rest) := by
    refine dropLineFeed_blockStart fun free => ?_
    cases cs with
    | nil => simp [List.replicate_succ, literalQuote]
    | cons c cs => simpa using fun feed : c = '\n' => free (feed ▸ List.mem_cons_self)
  have start (more : List Char) : Text.stripStart? [literalQuote, literalQuote, literalQuote]
      (List.replicate 3 literalQuote ++ more) = some more := Text.stripStart?_append _ more
  have noBasic (more : List Char) : Text.stripStart? [basicQuote, basicQuote, basicQuote]
      (List.replicate 3 literalQuote ++ more) = none :=
    stripStart?_eq_none (by simp [List.replicate_succ, basicQuote, literalQuote]) _
  rw [readString, noBasic, start]
  dsimp only
  rw [inside, readLiteralBlock_append plain runs stop]
  rfl

/-- A string is read back as it was, if no quote follows. -/
theorem readString_quote (s : String) {rest : List Char} (stop : rest.head? ≠ some basicQuote)
    (stop' : rest.head? ≠ some literalQuote) :
    readString ((quote s).toList ++ rest) = some (s, rest) := by
  rw [quote, String.toList_ofList]
  cases chosen : quoting s.toList with
  | basic => simpa using readString_basic stop s.toList
  | literal => simpa using readString_literal (quoting_literal chosen) stop'
  | basicBlock => simpa [List.replicate_succ] using readString_basicBlock stop s.toList
  | literalBlock =>
    obtain ⟨plain, runs⟩ := quoting_literalBlock chosen
    simpa [List.replicate_succ] using readString_literalBlock plain runs stop'

/-! ### Carriage returns -/

theorem EscapesTo.noReturn {c : Char} {written : List Char} (escapes : EscapesTo c written) :
    '\r' ∉ written := by
  cases escapes with
  | short known =>
    obtain ⟨-, -, -, -, other⟩ := shortEscape?_other known
    simp [backslash, other.symm]
  | @numbered x₁ x₂ x₃ x₄ known =>
    intro member
    have digit : '\r' = x₁ ∨ '\r' = x₂ ∨ '\r' = x₃ ∨ '\r' = x₄ := by
      simpa [backslash] using member
    have none : hexDigit? '\r' = none := rfl
    rcases digit with rfl | rfl | rfl | rfl <;> simp [ofHex?, none] at known

theorem noReturn_escapeBasic (block : Bool) (spare run : Nat) (cs : List Char) :
    '\r' ∉ escapeBasic block spare run cs := by
  induction cs generalizing run with
  | nil => simp [escapeBasic]
  | cons c cs ih =>
    have begins := begins_escapeBasic block spare run c cs
    generalize escapeBasic block spare run (c :: cs) = whole at begins
    cases begins with
    | quote _ same =>
      subst same
      simp [basicQuote, ih]
    | feed _ same =>
      subst same
      simp [ih]
    | plain _ _ plain =>
      have other : '\r' ≠ c := by
        rintro rfl
        exact absurd plain (by decide)
      simp [other, ih]
    | escaped escapes => simp [escapes.noReturn, ih]

/-- No carriage return stands in a written string, so none is taken out of it. -/
theorem noReturn_quote (s : String) : '\r' ∉ (quote s).toList := by
  have start : '\r' ∉ blockStart s.toList := by
    unfold blockStart
    split <;> simp
  have unplain : isPlain '\r' = false := rfl
  rw [quote, String.toList_ofList]
  cases chosen : quoting s.toList with
  | basic => simp [noReturn_escapeBasic, basicQuote]
  | literal =>
    have free : '\r' ∉ s.toList := fun member => by
      simpa [unplain] using (quoting_literal chosen _ member).1
    simp [literalQuote, free]
  | basicBlock => simp [noReturn_escapeBasic, basicQuote, start]
  | literalBlock =>
    have free : '\r' ∉ s.toList := fun member => by
      simpa [unplain] using (quoting_literalBlock chosen).1 _ member
    simp [literalQuote, free, start]

end HunkReview.Toml
