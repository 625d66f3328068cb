import HunkReview.Proofs.Stream.Pieces
import HunkReview.Proofs.Stream.Sound
import HunkReview.Stream.Ansi
import Mathlib.Data.List.Forall2

/-! What a terminal writes. Without color it is the text that was presented, byte for byte. With color the
text stands between sequences that select renditions; where it has no escapes of its own, deleting the
sequences gives it back. -/
namespace HunkReview

/-! ### Rendition sequences -/

def isParameter (c : Char) : Bool :=
  c.isDigit || c == ';'

/-- The size of the sequence that a text begins with: an escape, `[`, parameters and `m`. -/
def renditionSize? (cs : List Char) : Option Nat :=
  let parameters := (cs.drop 2).takeWhile isParameter
  if cs.take 2 = ['\x1b', '['] ∧ ((cs.drop 2).drop parameters.length).head? = some 'm' then
    some (parameters.length + 3)
  else none

/-- Delete the characters that belong to a sequence already, and all sequences after them. -/
def deleteRenditions : Nat → List Char → List Char
  | _, [] => []
  | inside + 1, _ :: cs => deleteRenditions inside cs
  | 0, c :: cs =>
    match renditionSize? (c :: cs) with
    | some size => deleteRenditions (size - 1) cs
    | none => c :: deleteRenditions 0 cs

def withoutRenditions (text : String) : String :=
  String.ofList (deleteRenditions 0 text.toList)

/-- Whatever comes after it, deleting sequences leaves this of what is written. -/
def Leaves (written shown : List Char) : Prop :=
  ∀ rest, deleteRenditions 0 (written ++ rest) = shown ++ deleteRenditions 0 rest

theorem leaves_nil : Leaves [] [] :=
  fun _ => rfl

theorem Leaves.append {a b x y : List Char} (first : Leaves a x) (second : Leaves b y) :
    Leaves (a ++ b) (x ++ y) := by
  intro rest
  rw [List.append_assoc, first, second, List.append_assoc]

theorem leaves_text {text : List Char} (free : '\x1b' ∉ text) : Leaves text text := by
  intro rest
  induction text with
  | nil => rfl
  | cons c cs ih =>
    obtain ⟨here, below⟩ := not_or.mp (mt List.mem_cons.mpr free)
    have plain : renditionSize? (c :: (cs ++ rest)) = none := by
      apply if_neg
      rintro ⟨escape, -⟩
      exact here (List.cons.inj escape).1.symm
    simp [deleteRenditions, plain, ih below]

theorem deleteRenditions_inside (inside rest : List Char) :
    deleteRenditions inside.length (inside ++ rest) = deleteRenditions 0 rest := by
  induction inside with
  | nil => rfl
  | cons c cs ih => exact ih

theorem leaves_escape {codes : String} (parameters : ∀ c ∈ codes.toList, isParameter c) :
    Leaves (escape codes).toList [] := by
  intro rest
  have written : (escape codes).toList ++ rest = '\x1b' :: '[' :: (codes.toList ++ 'm' :: rest) := by
    simp [escape]
  have scanned : (codes.toList ++ 'm' :: rest).takeWhile isParameter = codes.toList := by
    simp [List.takeWhile_append_of_pos parameters, isParameter]
  have size : renditionSize? ('\x1b' :: '[' :: (codes.toList ++ 'm' :: rest)) =
      some (codes.toList.length + 3) := by
    simp [renditionSize?, scanned]
  have behind := deleteRenditions_inside ('[' :: (codes.toList ++ ['m'])) rest
  simpa [written, deleteRenditions, size] using behind

theorem isParameter_toString (n : Nat) : ∀ c ∈ (toString n).toList, isParameter c := by
  intro c member
  have digits : (toString n).toList = Nat.toDigits 10 n := String.toList_ofList
  rw [digits] at member
  simp [isParameter, Nat.isDigit_of_mem_toDigits (by decide) (by decide) member]

/-! ### Pens -/

namespace Pen

theorem leaves_opening (p : Pen) : Leaves p.opening.toList [] := by
  have palette (codes : String) (n : Nat) (parameters : ∀ c ∈ codes.toList, isParameter c) :
      Leaves (escape (codes ++ toString n)).toList [] := by
    apply leaves_escape
    rw [String.toList_append]
    exact List.forall_mem_append.mpr ⟨parameters, isParameter_toString n⟩
  have foreground (c : AnsiColor) : Leaves c.foreground.toList [] := by
    cases c with
    | palette n => exact palette "38;5;" n (by simp [isParameter])
    | default => exact leaves_escape (by simp [isParameter])
  have background (c : AnsiColor) : Leaves c.background.toList [] := by
    cases c with
    | palette n => exact palette "48;5;" n (by simp [isParameter])
    | default => exact leaves_escape (by simp [isParameter])
  obtain ⟨fore, back, rendition⟩ := p
  simp only [opening, String.toList_append]
  apply ((_ : Leaves _ []).append (_ : Leaves _ [])).append (_ : Leaves _ [])
  · cases back with
    | none => exact leaves_nil
    | some c => exact background c
  · cases fore with
    | none => exact leaves_nil
    | some c => exact foreground c
  · cases rendition with
    | none => exact leaves_nil
    | some n => exact leaves_escape (isParameter_toString n)

theorem leaves_closing (p : Pen) : Leaves p.closing.toList [] := by
  have reset : Leaves (escape "0").toList [] := leaves_escape (by simp [isParameter])
  have foreground : Leaves (escape "39").toList [] := leaves_escape (by simp [isParameter])
  have background : Leaves (escape "49").toList [] := leaves_escape (by simp [isParameter])
  unfold closing
  split
  · exact reset
  · rw [String.toList_append]
    apply Leaves.append (x := []) (y := [])
    · split
      · exact background
      · exact leaves_nil
    · split
      · exact foreground
      · exact leaves_nil

theorem leaves_print (p : Pen) {text : String} (free : '\x1b' ∉ text.toList) :
    Leaves (p.print text).toList text.toList := by
  have written := (p.leaves_opening.append (leaves_text free)).append p.leaves_closing
  simpa [print] using written

end Pen

/-! ### Rows -/

/-- Without color the pieces of a row are written as they are. -/
theorem StyledRow.print_plain (r : StyledRow) :
    (r.print false).toList = r.pieces.flatMap (·.2) ++ ['\n'] := by
  have plain (piece : Option Style × List Char) : (printPiece false piece).toList = piece.2 := by
    obtain ⟨_ | style, text⟩ := piece <;> simp [printPiece]
  simp [StyledRow.print, String.toList_join, List.flatMap_map, plain]

theorem leaves_printPieces {pieces : List (Option Style × List Char)}
    (free : '\x1b' ∉ pieces.flatMap (·.2)) :
    Leaves (pieces.flatMap fun piece => (printPiece true piece).toList) (pieces.flatMap (·.2)) := by
  induction pieces with
  | nil => exact leaves_nil
  | cons piece pieces ih =>
    obtain ⟨style, text⟩ := piece
    simp only [List.flatMap_cons, List.mem_append, not_or] at free ⊢
    apply Leaves.append _ (ih free.2)
    cases style with
    | none => simpa [printPiece] using leaves_text free.1
    | some style =>
      have plain : '\x1b' ∉ (String.ofList text).toList := by simpa using free.1
      simpa [printPiece] using style.pen.leaves_print plain

theorem StyledRow.leaves_print {r : StyledRow} (free : '\x1b' ∉ r.pieces.flatMap (·.2)) :
    Leaves (r.print true).toList (r.pieces.flatMap (·.2) ++ ['\n']) := by
  have feed : Leaves ['\n'] ['\n'] := leaves_text (by decide)
  simpa [StyledRow.print, String.toList_join, List.flatMap_map] using
    (leaves_printPieces free).append feed

/-! ### The whole text -/

theorem rowText_segment {text : String} (fits : Text.OneLine text) : rowText (text ++ "\n") = text := by
  have feed : ∀ c ∈ ['\n'], c == '\n' := by simp
  have last : ∀ c ∈ text.toList.getLast?, (c == '\n') = false := by
    intro c ends
    simpa using fun same : c = '\n' => fits (same ▸ List.mem_of_mem_getLast? ends)
  have kept := Text.dropEndWhile_append_of_all text.toList feed
  rw [Text.dropEndWhile_of_last last] at kept
  simp [rowText, kept]

def IsRowOf (r : StyledRow) (segment : String) : Prop :=
  ∃ spans, r = styleRow (rowText segment) spans

theorem layout_rowsOf (segments : List String) (spans : List Span) :
    List.Forall₂ IsRowOf (layout segments spans) segments := by
  rw [List.forall₂_iff_get]
  refine ⟨List.length_mapIdx, fun i inside inside' => ?_⟩
  simp only [layout, List.get_eq_getElem, List.getElem_mapIdx]
  exact ⟨_, rfl⟩

def IsLine (segment : String) : Prop :=
  ∃ text, segment = text ++ "\n" ∧ Text.OneLine text

theorem IsRowOf.flatMap_pieces {r : StyledRow} {segment : String} (row : IsRowOf r segment)
    (line : IsLine segment) : r.pieces.flatMap (·.2) ++ ['\n'] = segment.toList := by
  obtain ⟨spans, rfl⟩ := row
  obtain ⟨text, rfl, fits⟩ := line
  have whole := (pieces_styleRow text spans).2
  simp [whole, rowText_segment fits]

theorem IsRowOf.print_plain {r : StyledRow} {segment : String} (row : IsRowOf r segment)
    (line : IsLine segment) : r.print false = segment := by
  apply String.toList_injective
  rw [r.print_plain, row.flatMap_pieces line]

theorem IsRowOf.leaves_print {r : StyledRow} {segment : String} (row : IsRowOf r segment)
    (line : IsLine segment) (free : '\x1b' ∉ segment.toList) :
    Leaves (r.print true).toList segment.toList := by
  rw [← row.flatMap_pieces line] at free ⊢
  exact StyledRow.leaves_print fun escape => free (List.mem_append_left _ escape)

theorem printRows_plain {rows : List StyledRow} {segments : List String}
    (laidOut : List.Forall₂ IsRowOf rows segments) (lines : ∀ segment ∈ segments, IsLine segment) :
    printRows false rows = String.join segments := by
  induction laidOut with
  | nil => rfl
  | @cons r segment rows segments row laidOut ih =>
    obtain ⟨line, below⟩ := List.forall_mem_cons.mp lines
    simp only [printRows] at ih
    simp [printRows, row.print_plain line, ih below]

theorem leaves_printRows {rows : List StyledRow} {segments : List String}
    (laidOut : List.Forall₂ IsRowOf rows segments) (lines : ∀ segment ∈ segments, IsLine segment)
    (free : ∀ segment ∈ segments, '\x1b' ∉ segment.toList) :
    Leaves (printRows true rows).toList (String.join segments).toList := by
  induction laidOut with
  | nil => exact leaves_nil
  | @cons r segment rows segments row laidOut ih =>
    obtain ⟨line, below⟩ := List.forall_mem_cons.mp lines
    obtain ⟨here, later⟩ := List.forall_mem_cons.mp free
    have written := (row.leaves_print line here).append (ih below later)
    simpa [printRows] using written

/-! ### Terminals -/

/-- What a terminal had before does not matter, and the spans are laid over the text in order. -/
theorem Stream.present_eq (s : Stream) (t : Terminal) :
    s.present t = ⟨t.color, s.segments, s.spans⟩ := by
  have laid (spans : List Span) (t : Terminal) :
      spans.foldl Terminal.applyStyle t = { t with spans := t.spans ++ spans } := by
    induction spans generalizing t with
    | nil => simp
    | cons span spans ih => simp [ih, Terminal.applyStyle]
  simp [present, laid, Terminal.renderStream]

/-- However a session came about: without color a terminal writes the text of the stream, and with color
it writes the same text between renditions, if the text has no escapes in it. -/
theorem History.output_render (actions : List Action) (showHelp : Bool) (before : Terminal) :
    let stream := ((of actions).session.render showHelp).2
    (stream.present { before with color := false }).output = stream.text ∧
      ((∀ segment ∈ stream.segments, '\x1b' ∉ segment.toList) →
        withoutRenditions (stream.present { before with color := true }).output = stream.text) := by
  intro stream
  have lines : ∀ segment ∈ stream.segments, IsLine segment :=
    (sound_render actions showHelp).segments
  have laidOut := layout_rowsOf stream.segments stream.spans
  constructor
  · rw [stream.present_eq]
    exact printRows_plain laidOut lines
  · intro free
    have left := leaves_printRows laidOut lines free []
    rw [stream.present_eq]
    apply String.toList_injective
    simpa [withoutRenditions, Terminal.output, deleteRenditions, Stream.text] using left

/-- A replaced line with highlights in it, under a verdict. -/
theorem History.output_render_replacement :
    let stream := ((of [.start "patch", .applyDiff "diff --git a/é b/é\n@@ -1 +1 @@\n-ab\n+aé\n",
      .setVerdict ⟨"é", .clamp 1⟩ .approved]).session.render false).2
    (∀ segment ∈ stream.segments, '\x1b' ∉ segment.toList) ∧
      withoutRenditions (stream.present { color := true }).output = stream.text := by
  have free : ∀ segment ∈ (((of [.start "patch",
      .applyDiff "diff --git a/é b/é\n@@ -1 +1 @@\n-ab\n+aé\n",
      .setVerdict ⟨"é", .clamp 1⟩ .approved]).session.render false).2).segments,
      '\x1b' ∉ segment.toList := by decide +kernel
  exact ⟨free, (output_render _ false { color := true }).2 free⟩

end HunkReview
