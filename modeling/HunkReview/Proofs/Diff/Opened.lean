import HunkReview.Proofs.Diff.Scan
import HunkReview.Review.Session
import Mathlib.Data.List.Forall2
import Mathlib.Data.List.TakeWhile

/-! Which hunks a diff has, told from the positions of its lines. A hunk is opened by one `@@` line,
belongs to the nearest file line before it, and holds the body lines up to the next boundary. -/
namespace HunkReview

def IsBoundaryLine (line : List Char) : Prop :=
  IsFileLine line ∨ "@@".toList <+: line

/-- A line that starts with `+`, `-` or a space, but not with `---` or `+++`. -/
def IsBodyLine (line : List Char) : Prop :=
  (line.head? = some '+' ∨ line.head? = some '-' ∨ line.head? = some ' ') ∧
    ¬"---".toList <+: line ∧ ¬"+++".toList <+: line

instance : DecidablePred IsBodyLine := fun _ => inferInstanceAs (Decidable (_ ∧ _))

/-- The line is the body line word for word: the marker of its kind, then its content. -/
def IsWritten (l : DiffLine) (line : List Char) : Prop :=
  line = l.kind.marker :: l.content.toList

/-- The nearest file line above line `k` names this path. -/
def FileAbove (ls : List (List Char)) (k : Nat) (path : List Char) : Prop :=
  ∃ j line, j < k ∧ ls[j]? = some line ∧ NamesFile line path ∧
    ∀ i other, j < i → i < k → ls[i]? = some other → ¬IsFileLine other

/-- The first boundary below line `k` is line `stop`, or there is none and the lines end there. -/
structure EndsAt (ls : List (List Char)) (k stop : Nat) : Prop where
  below : k < stop
  bound : stop ≤ ls.length
  inside : ∀ i line, k < i → i < stop → ls[i]? = some line → ¬IsBoundaryLine line
  boundary : ∀ line, ls[stop]? = some line → IsBoundaryLine line

/-- Line `k` opens a hunk: it starts with `@@`, is no file line but has one above it, and is a hunk
header. -/
def Opens (ls : List (List Char)) (k : Nat) : Prop :=
  ∃ line, ls[k]? = some line ∧ ¬IsFileLine line ∧ "@@".toList <+: line ∧
    (∃ j above, j < k ∧ ls[j]? = some above ∧ IsFileLine above) ∧
    (HunkHeader.parse? line).isSome

structure OpenedAt (ls : List (List Char)) (k : Nat) (h : Hunk) : Prop where
  header : ∃ line, ls[k]? = some line ∧ ¬IsFileLine line ∧ "@@".toList <+: line ∧
    HunkHeader.parse? line = some h.toHunkHeader
  file : FileAbove ls k h.file.toList
  id : h.id = ⟨h.file, h.newStart⟩
  body : ∃ stop, EndsAt ls k stop ∧
    List.Forall₂ IsWritten h.lines (((ls.take stop).drop (k + 1)).filter IsBodyLine)

theorem isBoundary_iff {line : List Char} : isBoundary line ↔ IsBoundaryLine line := by
  rw [isBoundary, Bool.or_eq_true, isHunkLine_iff, IsBoundaryLine]
  refine or_congr_left ?_
  rw [← not_iff_not, ← filePath?_eq_none_iff]
  simp

/-! ### Body lines -/

theorem LineKind.ofMarker?_eq_some_iff {c : Char} {k : LineKind} :
    ofMarker? c = some k ↔ c = k.marker := by
  refine ⟨fun h => (marker_of_ofMarker? h).symm, ?_⟩
  rintro rfl
  exact ofMarker?_marker k

theorem LineKind.ofMarker?_isSome_iff {c : Char} :
    (ofMarker? c).isSome ↔ c = '+' ∨ c = '-' ∨ c = ' ' := by
  constructor
  · intro known
    obtain ⟨k, found⟩ := Option.isSome_iff_exists.mp known
    rw [ofMarker?_eq_some_iff] at found
    cases k <;> simp [found, marker]
  · rintro (rfl | rfl | rfl) <;> rfl

theorem DiffLine.parse?_isSome_iff {line : List Char} :
    (DiffLine.parse? line).isSome ↔ IsBodyLine line := by
  unfold DiffLine.parse? IsBodyLine
  rw [← startsWith_iff, ← startsWith_iff]
  split
  next mark =>
    rw [Bool.or_eq_true] at mark
    constructor
    · intro absent
      cases absent
    · rintro ⟨-, noMinus, noPlus⟩
      exact (mark.elim noMinus noPlus).elim
  next plain =>
    rw [Bool.or_eq_true, not_or] at plain
    cases line with
    | nil => simp
    | cons c content =>
      rw [Option.isSome_map, LineKind.ofMarker?_isSome_iff]
      simp only [List.head?_cons, Option.some.injEq]
      exact (and_iff_left plain).symm

theorem DiffLine.isWritten_of_parse? {line : List Char} {l : DiffLine}
    (read : DiffLine.parse? line = some l) : IsWritten l line := by
  unfold DiffLine.parse? at read
  split at read
  · cases read
  · cases line with
    | nil => cases read
    | cons c content =>
      obtain ⟨kind, found, rfl⟩ := Option.map_eq_some_iff.mp read
      rw [LineKind.ofMarker?_eq_some_iff] at found
      simp [IsWritten, found]

theorem written_filterMap (ls : List (List Char)) :
    List.Forall₂ IsWritten (ls.filterMap DiffLine.parse?) (ls.filter IsBodyLine) := by
  induction ls with
  | nil => exact .nil
  | cons line ls ih =>
    cases read : DiffLine.parse? line with
    | none =>
      have other : ¬IsBodyLine line := by simp [← DiffLine.parse?_isSome_iff, read]
      rw [List.filterMap_cons_none read, List.filter_cons_of_neg (by simpa using other)]
      exact ih
    | some l =>
      have inBody : IsBodyLine line := by simp [← DiffLine.parse?_isSome_iff, read]
      rw [List.filterMap_cons_some read, List.filter_cons_of_pos (by simpa using inBody)]
      exact .cons (DiffLine.isWritten_of_parse? read) ih

theorem IsWritten.unique {l l' : DiffLine} {line : List Char} (h : IsWritten l line)
    (h' : IsWritten l' line) : l = l' := by
  obtain ⟨kind, content⟩ := l
  obtain ⟨kind', content'⟩ := l'
  obtain ⟨markers, contents⟩ := List.cons_eq_cons.mp (h.symm.trans h')
  have kinds : some kind = some kind' := by
    rw [← LineKind.ofMarker?_marker kind, ← LineKind.ofMarker?_marker kind']
    exact congrArg LineKind.ofMarker? markers
  cases kinds
  cases String.toList_injective contents
  rfl

theorem written_unique {body body' : List DiffLine} {ls : List (List Char)}
    (h : List.Forall₂ IsWritten body ls) (h' : List.Forall₂ IsWritten body' ls) : body = body' := by
  induction h generalizing body' with
  | nil => cases h'; rfl
  | cons first _ ih =>
    cases h' with
    | cons first' rest' => rw [first.unique first', ih rest']

/-! ### The file above a line -/

theorem IsFileLine.namesFile {line : List Char} (h : IsFileLine line) :
    ∃ path : String, NamesFile line path.toList := by
  cases found : filePath? line with
  | none => exact absurd h (filePath?_eq_none_iff.mp found)
  | some path => exact ⟨path, filePath?_eq_some_iff.mp found⟩

theorem not_fileAbove_zero (ls : List (List Char)) (path : List Char) : ¬FileAbove ls 0 path := by
  rintro ⟨j, _, before, _⟩
  omega

theorem fileAbove_succ_of_names {ls : List (List Char)} {k : Nat} {line path : List Char}
    (here : ls[k]? = some line) (names : NamesFile line path) (other : List Char) :
    FileAbove ls (k + 1) other ↔ other = path := by
  constructor
  · rintro ⟨j, above, before, found, named, nearest⟩
    rcases Nat.lt_or_eq_of_le (Nat.le_of_lt_succ before) with lt | rfl
    · exact absurd names.isFileLine (nearest k line lt (Nat.lt_succ_self k) here)
    · rw [here, Option.some.injEq] at found
      exact (found ▸ named).unique names
  · rintro rfl
    exact ⟨k, line, Nat.lt_succ_self k, here, names, fun i _ _ _ => by omega⟩

theorem fileAbove_succ_of_other {ls : List (List Char)} {k : Nat}
    (other : ∀ line, ls[k]? = some line → ¬IsFileLine line) (path : List Char) :
    FileAbove ls (k + 1) path ↔ FileAbove ls k path := by
  constructor
  · rintro ⟨j, above, before, found, named, nearest⟩
    have apart : j ≠ k := by
      rintro rfl
      exact other above found named.isFileLine
    exact ⟨j, above, by omega, found, named, fun i line lt gt => nearest i line lt (by omega)⟩
  · rintro ⟨j, above, before, found, named, nearest⟩
    refine ⟨j, above, by omega, found, named, fun i line lt gt here => ?_⟩
    rcases Nat.lt_or_eq_of_le (Nat.le_of_lt_succ gt) with inside | rfl
    · exact nearest i line lt inside here
    · exact other line here

theorem FileAbove.unique {ls : List (List Char)} {k : Nat} {path other : List Char}
    (h : FileAbove ls k path) (g : FileAbove ls k other) : path = other := by
  induction k with
  | zero => exact absurd h (not_fileAbove_zero ls path)
  | succ k ih =>
    by_cases named : ∃ line, ls[k]? = some line ∧ IsFileLine line
    · obtain ⟨line, here, isFile⟩ := named
      obtain ⟨file, names⟩ := isFile.namesFile
      rw [fileAbove_succ_of_names here names] at h g
      exact h.trans g.symm
    · have unnamed : ∀ line, ls[k]? = some line → ¬IsFileLine line :=
        fun line here isFile => named ⟨line, here, isFile⟩
      rw [fileAbove_succ_of_other unnamed] at h g
      exact ih h g

/-- Where there is a file line at all, one of them is the nearest. -/
theorem exists_fileAbove_iff {ls : List (List Char)} {k : Nat} :
    (∃ path : String, FileAbove ls k path.toList) ↔
      ∃ j line, j < k ∧ ls[j]? = some line ∧ IsFileLine line := by
  constructor
  · rintro ⟨path, j, line, before, found, named, -⟩
    exact ⟨j, line, before, found, named.isFileLine⟩
  · rintro ⟨j, line, before, found, isFile⟩
    induction k with
    | zero => omega
    | succ k ih =>
      by_cases named : ∃ line, ls[k]? = some line ∧ IsFileLine line
      · obtain ⟨last, here, isFile⟩ := named
        obtain ⟨path, names⟩ := isFile.namesFile
        exact ⟨path, (fileAbove_succ_of_names here names _).mpr rfl⟩
      · have apart : j ≠ k := by
          rintro rfl
          exact named ⟨line, found, isFile⟩
        obtain ⟨path, above⟩ := ih (by omega)
        refine ⟨path, (fileAbove_succ_of_other ?_ _).mpr above⟩
        exact fun last here isFile => named ⟨last, here, isFile⟩

/-! ### The end of a body -/

theorem EndsAt.unique {ls : List (List Char)} {k stop stop' : Nat} (h : EndsAt ls k stop)
    (h' : EndsAt ls k stop') : stop = stop' := by
  have early {a b : Nat} (ha : EndsAt ls k a) (hb : EndsAt ls k b) : ¬a < b := by
    intro lt
    have here := List.getElem?_eq_getElem (Nat.lt_of_lt_of_le lt hb.bound)
    exact hb.inside a _ ha.below lt here (ha.boundary _ here)
  have := early h h'
  have := early h' h
  omega

def linesBelow (ls : List (List Char)) (k : Nat) : List (List Char) :=
  (ls.drop (k + 1)).takeWhile (!isBoundary ·)

theorem linesBelow_append (ls : List (List Char)) (k : Nat) :
    ls.drop (k + 1) = linesBelow ls k ++ (ls.drop (k + 1)).dropWhile (!isBoundary ·) :=
  List.takeWhile_append_dropWhile.symm

theorem endsAt_linesBelow {ls : List (List Char)} {k : Nat} (bound : k < ls.length) :
    EndsAt ls k (k + 1 + (linesBelow ls k).length) where
  below := by omega
  bound := by
    have lengths := congrArg List.length (linesBelow_append ls k)
    rw [List.length_append, List.length_drop] at lengths
    omega
  inside i line after before here := by
    obtain ⟨d, rfl⟩ : ∃ d, i = k + 1 + d := ⟨i - (k + 1), by omega⟩
    rw [← List.getElem?_drop, linesBelow_append, List.getElem?_append_left (by omega)] at here
    have inside := List.mem_takeWhile_imp (List.mem_of_getElem? here)
    rw [← isBoundary_iff]
    simpa using inside
  boundary line here := by
    rw [← List.getElem?_drop, linesBelow_append, List.getElem?_append_right (Nat.le_refl _),
      Nat.sub_self, ← List.head?_eq_getElem?] at here
    have boundary := List.head?_dropWhile_not (!isBoundary ·) (ls.drop (k + 1))
    rw [here] at boundary
    rw [← isBoundary_iff]
    simpa using boundary

theorem take_drop_linesBelow (ls : List (List Char)) (k : Nat) :
    (ls.take (k + 1 + (linesBelow ls k).length)).drop (k + 1) = linesBelow ls k := by
  rw [List.drop_take, Nat.add_sub_cancel_left, linesBelow_append, List.take_left]

theorem written_linesBelow (ls : List (List Char)) (k : Nat) :
    List.Forall₂ IsWritten (bodyOf (ls.drop (k + 1)))
      (((ls.take (k + 1 + (linesBelow ls k).length)).drop (k + 1)).filter IsBodyLine) := by
  rw [take_drop_linesBelow]
  exact written_filterMap (linesBelow ls k)

/-! ### The hunks in order -/

theorem OpenedAt.unique {ls : List (List Char)} {k : Nat} {h h' : Hunk} (at_ : OpenedAt ls k h)
    (at' : OpenedAt ls k h') : h = h' := by
  obtain ⟨line, here, -, -, header⟩ := at_.header
  obtain ⟨line', here', -, -, header'⟩ := at'.header
  obtain ⟨stop, ends, body⟩ := at_.body
  obtain ⟨stop', ends', body'⟩ := at'.body
  obtain rfl : line = line' := Option.some.inj (here.symm.trans here')
  obtain rfl := ends.unique ends'
  have headers := Option.some.inj (header.symm.trans header')
  have files := String.toList_injective (at_.file.unique at'.file)
  have lines := written_unique body body'
  cases h
  cases h'
  simp_all

theorem not_opens_of_fileLine {ls : List (List Char)} {k : Nat} {line : List Char}
    (here : ls[k]? = some line) (isFile : IsFileLine line) : ¬Opens ls k := by
  rintro ⟨line', here', other, -⟩
  rw [here, Option.some.injEq] at here'
  exact other (here' ▸ isFile)

theorem opens_iff {ls : List (List Char)} {k : Nat} {line : List Char}
    (here : ls[k]? = some line) (other : filePath? line = none) :
    Opens ls k ↔ isHunkLine line ∧ (∃ path : String, FileAbove ls k path.toList) ∧
      (HunkHeader.parse? line).isSome := by
  rw [isHunkLine_iff, exists_fileAbove_iff]
  constructor
  · rintro ⟨line', here', -, rest⟩
    rw [here, Option.some.injEq] at here'
    exact here' ▸ rest
  · intro rest
    exact ⟨line, here, filePath?_eq_none_iff.mp other, rest⟩

/-- The hunks are those that the lines from `n` on open, one for each such line and in order. -/
def OpenedFrom (ls : List (List Char)) (n : Nat) (hunks : List Hunk) : Prop :=
  ∃ ks : List Nat, ks.Pairwise (· < ·) ∧ (∀ k, k ∈ ks ↔ n ≤ k ∧ Opens ls k) ∧
    List.Forall₂ (OpenedAt ls) ks hunks

theorem openedFrom_end {ls : List (List Char)} {n : Nat} (short : ls.length ≤ n) :
    OpenedFrom ls n [] := by
  refine ⟨[], .nil, fun k => ⟨fun member => by simp at member, ?_⟩, .nil⟩
  rintro ⟨after, line, here, -⟩
  have := (List.getElem?_eq_some_iff.mp here).1
  omega

/-- A line that opens no hunk leaves the hunks to the lines below it. -/
theorem OpenedFrom.skip {ls : List (List Char)} {n : Nat} {hunks : List Hunk}
    (below : OpenedFrom ls (n + 1) hunks) (closed : ¬Opens ls n) : OpenedFrom ls n hunks := by
  obtain ⟨ks, sorted, member, opened⟩ := below
  refine ⟨ks, sorted, fun k => (member k).trans (and_congr_left fun opens => ?_), opened⟩
  have apart : k ≠ n := by
    rintro rfl
    exact closed opens
  omega

theorem OpenedFrom.cons {ls : List (List Char)} {n : Nat} {h : Hunk} {hunks : List Hunk}
    (below : OpenedFrom ls (n + 1) hunks) (opens : Opens ls n) (first : OpenedAt ls n h) :
    OpenedFrom ls n (h :: hunks) := by
  obtain ⟨ks, sorted, member, opened⟩ := below
  refine ⟨n :: ks, List.pairwise_cons.mpr ⟨fun k inside => ((member k).mp inside).1, sorted⟩,
    fun k => ?_, .cons first opened⟩
  rw [List.mem_cons, member]
  constructor
  · rintro (rfl | ⟨after, opensK⟩)
    · exact ⟨Nat.le_refl k, opens⟩
    · exact ⟨by omega, opensK⟩
  · rintro ⟨after, opensK⟩
    rcases Nat.eq_or_lt_of_le after with rfl | lt
    · exact .inl rfl
    · exact .inr ⟨lt, opensK⟩

theorem openedAt_header {ls : List (List Char)} {n : Nat} {line : List Char} {path : String}
    {header : HunkHeader} (here : ls[n]? = some line) (other : filePath? line = none)
    (marked : isHunkLine line) (above : FileAbove ls n path.toList)
    (read : HunkHeader.parse? line = some header) :
    OpenedAt ls n ⟨header, path, bodyOf (ls.drop (n + 1))⟩ where
  header := ⟨line, here, filePath?_eq_none_iff.mp other, isHunkLine_iff.mp marked, read⟩
  file := above
  id := rfl
  body := ⟨_, endsAt_linesBelow (List.getElem?_eq_some_iff.mp here).1, written_linesBelow ls n⟩

theorem hunksFrom_not_opens {ls : List (List Char)} {n : Nat} {line : List Char}
    {file : Option String} (here : ls[n]? = some line) (other : filePath? line = none)
    (above : ∀ path : String, file = some path ↔ FileAbove ls n path.toList)
    (closed : ¬Opens ls n) (tail : List (List Char)) :
    hunksFrom file (line :: tail) = hunksFrom file tail := by
  simp only [hunksFrom, other]
  split
  next marked =>
    split
    next path header read =>
      have fileAbove := (above path).mp rfl
      have opens := (opens_iff here other).mpr ⟨marked, ⟨path, fileAbove⟩, by simp [read]⟩
      exact absurd opens closed
    next => rfl
  next => rfl

/-- The hunks of the lines from `n` on, when `file` is the file above line `n`. -/
theorem hunksFrom_openedFrom (ls : List (List Char)) (n : Nat) (file : Option String)
    (above : ∀ path : String, file = some path ↔ FileAbove ls n path.toList) :
    OpenedFrom ls n (hunksFrom file (ls.drop n)) := by
  induction rest : ls.drop n generalizing n file with
  | nil => exact openedFrom_end (List.drop_eq_nil_iff.mp rest)
  | cons line tail ih =>
    have here : ls[n]? = some line := by
      rw [← Nat.add_zero n, ← List.getElem?_drop, rest]
      rfl
    have next : ls.drop (n + 1) = tail := by
      rw [← List.drop_drop, rest]
      rfl
    cases named : filePath? line with
    | some path =>
      have names := filePath?_eq_some_iff.mp named
      have above' (other : String) : some path = some other ↔ FileAbove ls (n + 1) other.toList := by
        rw [fileAbove_succ_of_names here names, Option.some.injEq, String.toList_inj, eq_comm]
      have below := ih (n + 1) (some path) above' next
      rw [hunksFrom_fileLine named]
      exact below.skip (not_opens_of_fileLine here names.isFileLine)
    | none =>
      have unnamed (other : List Char) (same : ls[n]? = some other) : ¬IsFileLine other := by
        rw [here, Option.some.injEq] at same
        exact same ▸ filePath?_eq_none_iff.mp named
      have above' (path : String) : file = some path ↔ FileAbove ls (n + 1) path.toList := by
        rw [above path, fileAbove_succ_of_other unnamed]
      have below := ih (n + 1) file above' next
      by_cases opens : Opens ls n
      · obtain ⟨marked, ⟨path, fileAbove⟩, known⟩ := (opens_iff here named).mp opens
        obtain rfl := (above path).mpr fileAbove
        obtain ⟨header, read⟩ := Option.isSome_iff_exists.mp known
        have first := openedAt_header here named marked fileAbove read
        simp only [hunksFrom, named, marked, if_true, read]
        exact below.cons opens (next ▸ first)
      · rw [hunksFrom_not_opens here named above opens]
        exact below.skip opens

/-- A line under a boundary that opens no hunk is in the body of no hunk. -/
theorem not_inside_of_orphan {ls : List (List Char)} {j i k stop : Nat} {line : List Char}
    (here : ls[j]? = some line) (boundary : IsBoundaryLine line) (closed : ¬Opens ls j)
    (after : j < i) (own : ∀ n other, j < n → n ≤ i → ls[n]? = some other → ¬IsBoundaryLine other)
    (opens : Opens ls k) (ends : EndsAt ls k stop) : ¬(k < i ∧ i < stop) := by
  rintro ⟨above, below⟩
  rcases Nat.lt_trichotomy k j with lt | rfl | gt
  · exact ends.inside j line lt (by omega) here boundary
  · exact closed opens
  · obtain ⟨header, at_, -, marked, -⟩ := opens
    exact own k header gt (by omega) at_ (.inr marked)

/-- Reading a diff gives one hunk for each line that opens one, in order, and no other. What the
hunk at a line holds is determined by the lines, nothing under a boundary that opens no hunk is in
any of them, and a session without marks takes them as pending. -/
theorem parseDiff_openedAt (text : String) :
    let ls := Text.lines text.toList
    (∃ ks : List Nat, ks.Pairwise (· < ·) ∧ (∀ k, k ∈ ks ↔ Opens ls k) ∧
      List.Forall₂ (OpenedAt ls) ks (parseDiff text)) ∧
    (∀ k h h', OpenedAt ls k h → OpenedAt ls k h' → h = h') ∧
    (∀ j i line, ls[j]? = some line → IsBoundaryLine line → ¬Opens ls j → j < i →
      (∀ n other, j < n → n ≤ i → ls[n]? = some other → ¬IsBoundaryLine other) →
      ∀ k stop, Opens ls k → EndsAt ls k stop → ¬(k < i ∧ i < stop)) ∧
    (Session.applyDiff {} (parseDiff text)).hunks =
      (parseDiff text).map fun h => ⟨h, .pending, .pending, 0⟩ := by
  intro ls
  refine ⟨?_, fun k h h' => OpenedAt.unique, ?_, rfl⟩
  · have above (path : String) : none = some path ↔ FileAbove ls 0 path.toList :=
      ⟨nofun, fun above => absurd above (not_fileAbove_zero ls _)⟩
    obtain ⟨ks, sorted, member, opened⟩ := hunksFrom_openedFrom ls 0 none above
    refine ⟨ks, sorted, fun k => (member k).trans (and_iff_right (Nat.zero_le k)), ?_⟩
    rw [parseDiff_eq_hunksFrom]
    exact opened
  · intro j i line here boundary closed after own k stop opens ends
    exact not_inside_of_orphan here boundary closed after own opens ends

end HunkReview
