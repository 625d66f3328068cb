import HunkReview.Proofs.Diff.Header
import HunkReview.Proofs.Diff.Scan
import Mathlib.Data.List.TakeWhile

/-! Diffs as they are printed, and what reading a printed section of one file gives. A hunk comes
back with its numbers and all its body lines but those that look like the `---` and `+++` lines of a
file. -/
namespace HunkReview

/-- A start and a count; a count of one may be left out. -/
def printSide (short : Bool) (start count : LineNo) : List Char :=
  if short && count.val == 1 then start.render.toList
  else start.render.toList ++ ',' :: count.render.toList

def HunkHeader.printNumbers (short : Bool) (h : HunkHeader) : List Char :=
  "@@ -".toList ++ (printSide short h.oldStart h.oldCount ++ (" +".toList ++
    (printSide short h.newStart h.newCount ++ " @@".toList)))

def HunkHeader.printContext (h : HunkHeader) : List Char :=
  if h.context.isEmpty then [] else ' ' :: h.context.toList

def HunkHeader.print (short : Bool) (h : HunkHeader) : List Char :=
  h.printNumbers short ++ h.printContext

def Hunk.printLines (short : Bool) (h : Hunk) : List (List Char) :=
  h.toHunkHeader.print short :: h.lines.map (·.text.toList)

def printFileLine (path : List Char) : List Char :=
  "diff --git a/".toList ++ (path ++ (" b/".toList ++ path))

def printSection (short : Bool) (path : String) (hunks : List Hunk) : String :=
  String.ofList (Text.writeLines
    (printFileLine path.toList :: hunks.flatMap (Hunk.printLines short)))

def DiffLine.isFileMark (l : DiffLine) : Bool :=
  startsWith "---".toList l.text.toList || startsWith "+++".toList l.text.toList

/-! ### Numbers and headers -/

theorem LineNo.ofDigits?_toDigits (n : LineNo) :
    LineNo.ofDigits? (Nat.toDigits 10 n.val) = some n := by
  simp [LineNo.ofDigits?, LineNo.ofNat?, Nat.ofDigitChars_ten_toDigits, Nat.toDigits_ne_nil, n.le_max]

def sideText (short : Bool) (start count : LineNo) : SideText where
  start := start.render.toList
  count := if short && count.val == 1 then none else some count.render.toList

theorem text_sideText (short : Bool) (start count : LineNo) :
    (sideText short start count).text = printSide short start count := by
  by_cases single : (short && count.val == 1) = true <;>
    simp [sideText, printSide, SideText.text, single]

theorem tells_sideText (short : Bool) (start count : LineNo) :
    (sideText short start count).Tells start count := by
  refine ⟨start.isNumeral_render, ?_⟩
  by_cases single : (short && count.val == 1) = true
  · simp_all [sideText]
  · simpa [sideText, single] using count.isNumeral_render

theorem HunkHeader.parse?_printNumbers (short : Bool) (h : HunkHeader) {rest : List Char}
    (clean : '\n' ∉ rest) :
    parse? (h.printNumbers short ++ rest) =
      some ⟨h.oldStart, h.oldCount, h.newStart, h.newCount, String.ofList (Text.trim rest)⟩ := by
  have printed : h.printNumbers short ++ rest = HeaderText.text
      ⟨sideText short h.oldStart h.oldCount, sideText short h.newStart h.newCount, rest⟩ := by
    simp [printNumbers, HeaderText.text, text_sideText]
  rw [printed]
  apply parse?_text
  exact ⟨tells_sideText .., tells_sideText .., clean, by simpa using Text.isTrimmed_trim rest⟩

/-! ### File lines -/

theorem overlap_old_path {path old rest cs : List Char}
    (same : path ++ (" b/".toList ++ cs) = old ++ (" b/".toList ++ rest))
    (plain : ¬" b/".toList <:+: cs) : old.length ≤ path.length := by
  by_contra longer
  obtain ⟨extra, rfl⟩ : path <+: old :=
    List.prefix_of_prefix_length_le ⟨_, same⟩ ⟨_, rfl⟩ (by omega)
  rw [List.append_assoc, List.append_cancel_left_eq] at same
  -- The second ` b/` starts behind the first one, so it lies in the new path.
  rcases extra with _ | ⟨c₁, _ | ⟨c₂, _ | ⟨c₃, extra⟩⟩⟩
  · simp at longer
  · simp at same
  · simp at same
  · obtain ⟨-, -, -, inside⟩ : ' ' = c₁ ∧ 'b' = c₂ ∧ '/' = c₃ ∧
        cs = extra ++ (" b/".toList ++ rest) := by simpa using same
    exact plain ⟨extra, rest, by rw [inside, List.append_assoc]⟩

theorem filePath?_printFileLine {path new : List Char} (named : path ≠ []) (newNamed : new ≠ [])
    (plain : ¬" b/".toList <:+: new) :
    filePath? ("diff --git a/".toList ++ (path ++ (" b/".toList ++ new))) =
      some (String.ofList new) := by
  have written : (String.ofList new).toList = new := String.toList_ofList
  rw [filePath?_eq_some_iff, written]
  refine ⟨path, ⟨_, rfl, rfl, named, newNamed⟩, ?_⟩
  rintro other rest ⟨cs, same, parted⟩
  exact overlap_old_path ((List.append_cancel_left same).trans parted.text) plain

/-! ### Sections -/

theorem bodyOf_append {body : List (List Char)} (inside : ∀ l ∈ body, isBoundary l = false)
    (rest : List (List Char)) :
    bodyOf (body ++ rest) = body.filterMap DiffLine.parse? ++ bodyOf rest := by
  unfold bodyOf
  rw [List.takeWhile_append_of_pos (by simpa using inside), List.filterMap_append]

theorem hunksFrom_append {body : List (List Char)} (inside : ∀ l ∈ body, isBoundary l = false)
    (file : Option String) (rest : List (List Char)) :
    hunksFrom file (body ++ rest) = hunksFrom file rest := by
  induction body with
  | nil => rfl
  | cons line body ih =>
    rw [List.cons_append, hunksFrom_inside (inside line List.mem_cons_self)]
    exact ih fun l member => inside l (List.mem_cons_of_mem line member)

/-- A hunk's lines, and then nothing or another boundary, are read as the hunk. -/
theorem hunksFrom_header {line : List Char} {header : HunkHeader} {body rest : List (List Char)}
    (other : filePath? line = none) (marked : isHunkLine line)
    (read : HunkHeader.parse? line = some header) (inside : ∀ l ∈ body, isBoundary l = false)
    (ended : bodyOf rest = []) (path : String) :
    hunksFrom (some path) (line :: (body ++ rest)) =
      ⟨header, path, body.filterMap DiffLine.parse?⟩ :: hunksFrom (some path) rest := by
  simp only [hunksFrom, other, marked, if_true, read]
  rw [bodyOf_append inside, ended, List.append_nil, hunksFrom_append inside]

theorem filePath?_of_head {c : Char} {cs : List Char} (other : c ≠ 'd') :
    filePath? (c :: cs) = none := by
  simp [filePath?, Text.stripStart?, Ne.symm other]

theorem DiffLine.isBoundary_text (l : DiffLine) : isBoundary l.text.toList = false := by
  have written : l.text.toList = l.kind.marker :: l.content.toList := String.toList_ofList
  rw [written, isBoundary, filePath?_of_head (by cases l.kind <;> decide)]
  cases l.kind <;> simp [isHunkLine, startsWith, Text.stripStart?, LineKind.marker]

theorem DiffLine.parse?_text (l : DiffLine) :
    parse? l.text.toList = if l.isFileMark then none else some l := by
  have written : l.text.toList = l.kind.marker :: l.content.toList := String.toList_ofList
  unfold parse? isFileMark
  split
  · rfl
  · rw [written]
    simp

theorem filterMap_parse?_text (ls : List DiffLine) :
    (ls.map (·.text.toList)).filterMap DiffLine.parse? = ls.filter (!·.isFileMark) := by
  induction ls with
  | nil => rfl
  | cons l ls ih =>
    rw [List.map_cons]
    have read := l.parse?_text
    cases mark : l.isFileMark with
    | true =>
      rw [mark, if_pos rfl] at read
      rw [List.filterMap_cons_none read, ih, List.filter_cons_of_neg (by simp [mark])]
    | false =>
      rw [mark, if_neg Bool.false_ne_true] at read
      rw [List.filterMap_cons_some read, ih, List.filter_cons_of_pos (by simp [mark])]

/-- A line of a file: it has no line feed, and no carriage return at its end. -/
def IsLineText (content : String) : Prop :=
  '\n' ∉ content.toList ∧ content.toList.getLast? ≠ some '\r'

theorem DiffLine.dropReturn_text {l : DiffLine} (clean : IsLineText l.content) :
    Text.dropReturn l.text.toList = l.text.toList := by
  have written : l.text.toList = [l.kind.marker] ++ l.content.toList := String.toList_ofList
  rw [written, Text.dropReturn_append, Text.dropReturn_of_ne clean.2]
  cases l.kind <;> simp [LineKind.marker]

theorem DiffLine.newline_not_mem_text {l : DiffLine} (clean : IsLineText l.content) :
    '\n' ∉ l.text.toList := by
  have written : l.text.toList = l.kind.marker :: l.content.toList := String.toList_ofList
  rw [written, List.mem_cons, not_or]
  exact ⟨by cases l.kind <;> decide, clean.1⟩

theorem LineNo.oneLine_render (n : LineNo) : Text.OneLine n.render :=
  Text.oneLine_toString n.val

theorem newline_not_mem_printSide (short : Bool) (start count : LineNo) :
    '\n' ∉ printSide short start count := by
  have first := start.oneLine_render
  have second := count.oneLine_render
  rw [Text.OneLine] at first second
  unfold printSide
  split <;> simp [first, second]

theorem HunkHeader.newline_not_mem_printContext {h : HunkHeader}
    (clean : '\n' ∉ h.context.toList) : '\n' ∉ h.printContext := by
  unfold printContext
  split <;> simp [clean]

theorem HunkHeader.newline_not_mem_print (short : Bool) {h : HunkHeader}
    (clean : '\n' ∉ h.context.toList) : '\n' ∉ h.print short := by
  have old := newline_not_mem_printSide short h.oldStart h.oldCount
  have new := newline_not_mem_printSide short h.newStart h.newCount
  have rest := newline_not_mem_printContext clean
  simp [print, printNumbers, old, new, rest]

theorem HunkHeader.getLast?_printNumbers (short : Bool) (h : HunkHeader) :
    (h.printNumbers short).getLast? = some '@' := by
  unfold printNumbers
  simp only [List.getLast?_append]
  rfl

theorem HunkHeader.dropReturn_print (short : Bool) (h : HunkHeader) :
    Text.dropReturn (h.print short) = h.printNumbers short ++ Text.dropReturn h.printContext := by
  rw [print, Text.dropReturn_append]
  rw [getLast?_printNumbers]
  decide

/-- The hunk that reading gives back for a printed one. -/
def Hunk.readBack (path : List Char) (h : Hunk) : Hunk where
  oldStart := h.oldStart
  oldCount := h.oldCount
  newStart := h.newStart
  newCount := h.newCount
  context := String.ofList (Text.trim (Text.dropReturn h.printContext))
  file := String.ofList path
  lines := h.lines.filter (!·.isFileMark)

def readLines (short : Bool) (hunks : List Hunk) : List (List Char) :=
  (hunks.flatMap (Hunk.printLines short)).map Text.dropReturn

theorem readLines_cons (short : Bool) {h : Hunk} (clean : ∀ l ∈ h.lines, IsLineText l.content)
    (hunks : List Hunk) :
    readLines short (h :: hunks) =
      (h.printNumbers short ++ Text.dropReturn h.printContext) ::
        (h.lines.map (·.text.toList) ++ readLines short hunks) := by
  have same : h.lines.map (Text.dropReturn ∘ fun l => l.text.toList) =
      h.lines.map (·.text.toList) :=
    List.map_congr_left fun l member => DiffLine.dropReturn_text (clean l member)
  simp [readLines, Hunk.printLines, HunkHeader.dropReturn_print, same]

theorem isHunkLine_printNumbers (short : Bool) (h : HunkHeader) (rest : List Char) :
    isHunkLine (h.printNumbers short ++ rest) ∧ filePath? (h.printNumbers short ++ rest) = none := by
  obtain ⟨cs, printed⟩ : ∃ cs, h.printNumbers short ++ rest = '@' :: '@' :: cs :=
    ⟨_, by rw [HunkHeader.printNumbers, List.append_assoc]; rfl⟩
  rw [printed]
  exact ⟨isHunkLine_iff.mpr ⟨cs, rfl⟩, filePath?_of_head (by decide)⟩

/-- Printed hunks, and then nothing or another boundary, are read back in the file named last. -/
theorem hunksFrom_readLines (short : Bool) (path : List Char) {hunks : List Hunk}
    {rest : List (List Char)} (ended : bodyOf rest = [])
    (contexts : ∀ h ∈ hunks, '\n' ∉ h.context.toList)
    (bodies : ∀ h ∈ hunks, ∀ l ∈ h.lines, IsLineText l.content) :
    hunksFrom (some (String.ofList path)) (readLines short hunks ++ rest) =
      hunks.map (Hunk.readBack path) ++ hunksFrom (some (String.ofList path)) rest ∧
    bodyOf (readLines short hunks ++ rest) = [] := by
  induction hunks with
  | nil => exact ⟨rfl, ended⟩
  | cons h hunks ih =>
    obtain ⟨below, endedBelow⟩ := ih (fun g member => contexts g (List.mem_cons_of_mem h member))
      (fun g member => bodies g (List.mem_cons_of_mem h member))
    have clean : '\n' ∉ Text.dropReturn h.printContext := fun member =>
      HunkHeader.newline_not_mem_printContext (contexts h List.mem_cons_self)
        ((Text.dropReturn_start _).subset member)
    have inside : ∀ l ∈ h.lines.map (·.text.toList), isBoundary l = false := by
      intro l member
      obtain ⟨line, -, rfl⟩ := List.mem_map.mp member
      exact line.isBoundary_text
    obtain ⟨marked, other⟩ :=
      isHunkLine_printNumbers short h.toHunkHeader (Text.dropReturn h.printContext)
    have read := HunkHeader.parse?_printNumbers short h.toHunkHeader clean
    rw [readLines_cons short (bodies h List.mem_cons_self), List.cons_append, List.append_assoc,
      hunksFrom_header other marked read inside endedBelow, filterMap_parse?_text, below,
      bodyOf_boundary (by simp [isBoundary, marked])]
    exact ⟨rfl, rfl⟩

theorem newline_not_mem_printFileLine {path : List Char} (clean : '\n' ∉ path) :
    '\n' ∉ printFileLine path := by
  have start : '\n' ∉ "diff --git a/".toList := by decide
  have middle : '\n' ∉ " b/".toList := by decide
  unfold printFileLine
  rw [List.mem_append, List.mem_append, List.mem_append]
  rintro (feed | feed | feed | feed)
  · exact start feed
  · exact clean feed
  · exact middle feed
  · exact clean feed

theorem filePath?_dropReturn_printFileLine {path : List Char} (named : Text.dropReturn path ≠ [])
    (plain : ¬" b/".toList <:+: path) :
    filePath? (Text.dropReturn (printFileLine path)) =
      some (String.ofList (Text.dropReturn path)) := by
  have last : " b/".toList.getLast? = some '/' := rfl
  have start : ("diff --git a/".toList ++ path ++ " b/".toList).getLast? ≠ some '\r' := by
    rw [List.getLast?_append, last, Option.some_or]
    decide
  have printed : printFileLine path =
      "diff --git a/".toList ++ path ++ " b/".toList ++ path := by
    unfold printFileLine
    rw [List.append_assoc, List.append_assoc]
  rw [printed, Text.dropReturn_append start, List.append_assoc, List.append_assoc]
  exact filePath?_printFileLine (List.IsPrefix.ne_nil (Text.dropReturn_start _) named) named
    fun inside => plain (inside.trans (Text.dropReturn_start _).isInfix)

theorem newline_not_mem_printLines (short : Bool) {hunks : List Hunk}
    (contexts : ∀ h ∈ hunks, '\n' ∉ h.context.toList)
    (bodies : ∀ h ∈ hunks, ∀ l ∈ h.lines, IsLineText l.content) :
    ∀ l ∈ hunks.flatMap (Hunk.printLines short), '\n' ∉ l := by
  intro l member
  obtain ⟨h, inside, member⟩ := List.mem_flatMap.mp member
  rcases List.mem_cons.mp member with rfl | member
  · exact h.newline_not_mem_print short (contexts h inside)
  · obtain ⟨line, inBody, rfl⟩ := List.mem_map.mp member
    exact line.newline_not_mem_text (bodies h inside line inBody)

/-- Reading a printed section of one file gives its hunks, less the body lines that look like marks
of a file. -/
theorem parseDiff_printSection (short : Bool) {path : String} {hunks : List Hunk}
    (clean : '\n' ∉ path.toList) (named : Text.dropReturn path.toList ≠ [])
    (plain : ¬" b/".toList <:+: path.toList)
    (contexts : ∀ h ∈ hunks, '\n' ∉ h.context.toList)
    (bodies : ∀ h ∈ hunks, ∀ l ∈ h.lines, IsLineText l.content) :
    parseDiff (printSection short path hunks) =
      hunks.map (Hunk.readBack (Text.dropReturn path.toList)) := by
  have cleanLines : ∀ l ∈ printFileLine path.toList :: hunks.flatMap (Hunk.printLines short),
      '\n' ∉ l := List.forall_mem_cons.mpr
    ⟨newline_not_mem_printFileLine clean, newline_not_mem_printLines short contexts bodies⟩
  have fileLine := filePath?_dropReturn_printFileLine named plain
  have found :=
    (hunksFrom_readLines short (Text.dropReturn path.toList) bodyOf_nil contexts bodies).1
  rw [List.append_nil, hunksFrom, List.append_nil] at found
  rw [parseDiff_eq_hunksFrom, printSection, String.toList_ofList, Text.lines_writeLines cleanLines,
    List.map_cons, hunksFrom_fileLine fileLine]
  exact found

end HunkReview
