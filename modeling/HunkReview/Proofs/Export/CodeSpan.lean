import HunkReview.Export.Report
import HunkReview.Proofs.Text.Runs

/-! Code spans in Markdown. A span ends at the first run of backticks that is as long as its opening
fence, and one space at each end of its inside does not count. Read in this way, a quoted line is what
it was. -/
namespace HunkReview

open Text

def backtick : Char := '\x60'

def fenced (fence : Nat) (inner : List Char) : List Char :=
  List.replicate fence backtick ++ inner ++ List.replicate fence backtick

/-- The inside of a code span stands between fences, and no other run of backticks in the span is as
long as these. -/
structure IsCodeSpan (span : List Char) (fence : Nat) (inner : List Char) : Prop where
  spelt : span = fenced fence inner
  fences : ∀ start, IsRun backtick span start fence ↔ start = 0 ∨ start = fence + inner.length

/-- What the inside of a code span stands for: a space at each end is taken off, unless there are only
spaces. -/
def unpadded (inner : List Char) : List Char :=
  if inner.head? = some ' ' ∧ inner.getLast? = some ' ' ∧ inner.any (· != ' ') then
    inner.tail.dropLast
  else inner

/-! ### Between fences -/

section

variable {fence : Nat} {inner : List Char} {i : Nat}

theorem fenced_opening (within : i < fence) : (fenced fence inner)[i]? = some backtick := by
  rw [fenced, List.append_assoc, List.getElem?_append_left (by simpa using within),
    List.getElem?_replicate_of_lt within]

theorem fenced_inner (within : i < inner.length) : (fenced fence inner)[fence + i]? = inner[i]? := by
  rw [fenced, List.append_assoc, List.getElem?_append_right (by simp), List.length_replicate,
    Nat.add_sub_cancel_left, List.getElem?_append_left within]

theorem fenced_closing (after : fence + inner.length ≤ i) (within : i < fence + inner.length + fence) :
    (fenced fence inner)[i]? = some backtick := by
  rw [fenced, List.getElem?_append_right (by simpa using after), List.length_append,
    List.length_replicate, List.getElem?_replicate_of_lt (by omega)]

theorem fenced_past (past : fence + inner.length + fence ≤ i) : (fenced fence inner)[i]? = none :=
  List.getElem?_eq_none (by simpa [fenced, Nat.add_assoc] using past)

/-- A text that can stand between fences: these do not grow into it, and it has no run as long. -/
structure Fits (fence : Nat) (inner : List Char) : Prop where
  positive : 0 < fence
  filled : 0 < inner.length
  first : inner.head? ≠ some backtick
  last : inner.getLast? ≠ some backtick
  short : ¬List.replicate fence backtick <:+: inner

theorem Fits.firstOf (fits : Fits fence inner) : (fenced fence inner)[fence]? ≠ some backtick := by
  have same : (fenced fence inner)[fence]? = inner[0]? := fenced_inner fits.filled
  rw [same, ← List.head?_eq_getElem?]
  exact fits.first

theorem Fits.lastOf (fits : Fits fence inner) :
    (fenced fence inner)[fence + inner.length - 1]? ≠ some backtick := by
  have filled := fits.filled
  rw [Nat.add_sub_assoc filled, fenced_inner (by omega), ← List.getLast?_eq_getElem?]
  exact fits.last

theorem Fits.isRun_opening (fits : Fits fence inner) :
    IsRun backtick (fenced fence inner) 0 fence where
  given := fits.positive
  inside i _ high := fenced_opening (by omega)
  starts i before := by omega
  stops := by simpa using fits.firstOf

theorem Fits.isRun_closing (fits : Fits fence inner) :
    IsRun backtick (fenced fence inner) (fence + inner.length) fence where
  given := fits.positive
  inside i low high := fenced_closing low high
  starts i before := by
    rw [show i = fence + inner.length - 1 by omega]
    exact fits.lastOf
  stops := by simp [fenced_past]

/-- A run as long as the fence is one of the two fences: it can neither begin inside a fence, nor lie
in the text between them, nor reach over the end of that text. -/
theorem Fits.start_of_isRun (fits : Fits fence inner) {start : Nat}
    (run : IsRun backtick (fenced fence inner) start fence) :
    start = 0 ∨ start = fence + inner.length := by
  have positive := fits.positive
  by_contra other
  obtain early | between | late : start ≤ fence ∨
      fence < start ∧ start < fence + inner.length ∨ fence + inner.length < start := by omega
  · exact run.starts (start - 1) (by omega) (fenced_opening (by omega))
  · by_cases crosses : fence + inner.length < start + fence
    · exact fits.lastOf (run.inside _ (by omega) (by omega))
    · have stretch (i : Nat) (low : start - fence ≤ i) (high : i < start - fence + fence) :
          inner[i]? = some backtick := by
        rw [← fenced_inner (by omega)]
        exact run.inside _ (by omega) (by omega)
      exact fits.short (replicate_isInfix stretch)
  · by_cases past : fence + inner.length + fence ≤ start
    · have none := run.inside start le_rfl (by omega)
      rw [fenced_past past] at none
      cases none
    · exact run.starts (start - 1) (by omega) (fenced_closing (by omega) (by omega))

theorem Fits.isCodeSpan (fits : Fits fence inner) :
    IsCodeSpan (fenced fence inner) fence inner where
  spelt := rfl
  fences start := by
    refine ⟨fits.start_of_isRun, ?_⟩
    rintro (rfl | rfl)
    · exact fits.isRun_opening
    · exact fits.isRun_closing

end

/-! ### Quoting -/

theorem longestRunFrom_eq (run : Nat) (cs : List Char) :
    longestRunFrom run cs = Toml.longestRun backtick run cs := by
  induction cs generalizing run with
  | nil => rfl
  | cons c cs ih =>
    rw [longestRunFrom, Toml.longestRun, ih, ih]
    rfl

/-- The fence is longer than what stands in the text. -/
theorem lt_fence {count : Nat} {cs : List Char}
    (stretch : List.replicate count backtick <:+: cs) : count < longestRun cs + 1 := by
  rw [longestRun, longestRunFrom_eq]
  exact Nat.lt_succ_of_le (le_longestRun stretch 0)

theorem longestRunFrom_append_space (run : Nat) (cs : List Char) :
    longestRunFrom run (cs ++ [' ']) = longestRunFrom run cs := by
  induction cs generalizing run with
  | nil => simp [longestRunFrom]
  | cons c cs ih => simp [longestRunFrom, ih]

def TouchesFence (cs : List Char) : Prop :=
  cs.head? = some backtick ∨ cs.getLast? = some backtick

instance (cs : List Char) : Decidable (TouchesFence cs) :=
  inferInstanceAs (Decidable (_ ∨ _))

def padded (cs : List Char) : List Char :=
  if TouchesFence cs then ' ' :: (cs ++ [' ']) else cs

theorem toList_codeSpan (content : String) : (codeSpan content).toList =
    fenced (longestRun content.toList + 1) (padded content.toList) := by
  by_cases touches : TouchesFence content.toList
  · have pad : content.toList.head? = some '\x60' ∨ content.toList.getLast? = some '\x60' := touches
    simp [codeSpan, if_pos pad, padded, if_pos touches, fenced, repeated, backtick]
  · have pad : ¬(content.toList.head? = some '\x60' ∨ content.toList.getLast? = some '\x60') :=
      touches
    simp [codeSpan, if_neg pad, padded, if_neg touches, fenced, repeated, backtick]

/-- Spaces around a text add no backticks. -/
theorem longestRun_padded (cs : List Char) : longestRun (padded cs) = longestRun cs := by
  unfold padded
  split
  · simp [longestRun, longestRunFrom, longestRunFrom_append_space]
  · rfl

theorem getLast?_spaced (cs : List Char) : (' ' :: (cs ++ [' '])).getLast? = some ' ' :=
  List.getLast?_concat (l := ' ' :: cs)

theorem fits_padded {cs : List Char} (given : cs ≠ []) : Fits (longestRun cs + 1) (padded cs) := by
  have short : ¬List.replicate (longestRun cs + 1) backtick <:+: padded cs := by
    intro stretch
    have less := lt_fence stretch
    rw [longestRun_padded] at less
    exact absurd less (Nat.lt_irrefl _)
  by_cases touches : TouchesFence cs
  · rw [padded, if_pos touches] at short ⊢
    exact ⟨Nat.succ_pos _, by simp, by simp [backtick], by simp [getLast?_spaced, backtick], short⟩
  · rw [padded, if_neg touches] at short ⊢
    obtain ⟨first, last⟩ := not_or.mp touches
    exact ⟨Nat.succ_pos _, List.length_pos_iff.mpr given, first, last, short⟩

theorem TouchesFence.exists_mem {cs : List Char} (touches : TouchesFence cs) :
    ∃ c ∈ cs, c ≠ ' ' := by
  refine ⟨backtick, ?_, by decide⟩
  exact touches.elim List.mem_of_head? List.mem_of_getLast?

theorem unpadded_padded {cs : List Char}
    (ends : ¬(cs.head? = some ' ' ∧ cs.getLast? = some ' ')) : unpadded (padded cs) = cs := by
  by_cases touches : TouchesFence cs
  · obtain ⟨c, member, other⟩ := touches.exists_mem
    have more : (' ' :: cs ++ [' ']).any (· != ' ') :=
      List.any_eq_true.mpr ⟨c, by simp [member], bne_iff_ne.mpr other⟩
    rw [padded, if_pos touches, unpadded, if_pos ⟨rfl, getLast?_spaced cs, more⟩]
    exact List.dropLast_concat
  · rw [padded, if_neg touches, unpadded, if_neg fun spaces => ends ⟨spaces.1, spaces.2.1⟩]

/-- A text that is not empty and does not both begin and end with a space is quoted without loss: the
fences are longer than each run of backticks in it, they are where the span opens and where it ends, and
the inside stands for the text. -/
theorem codeSpan_quotes {content : String} (given : content ≠ "")
    (ends : ¬(content.toList.head? = some ' ' ∧ content.toList.getLast? = some ' ')) :
    ∃ fence inner, IsCodeSpan (codeSpan content).toList fence inner ∧
      (∀ start count, IsRun backtick content.toList start count → count < fence) ∧
      unpadded inner = content.toList := by
  have filled : content.toList ≠ [] := by simpa using given
  refine ⟨longestRun content.toList + 1, padded content.toList, ?_, ?_, unpadded_padded ends⟩
  · rw [toList_codeSpan]
    exact (fits_padded filled).isCodeSpan
  · intro start count run
    exact lt_fence run.isInfix

def tickedContent : String := " ``a` b`"

theorem codeSpan_quotes_tickedContent :
    tickedContent ≠ "" ∧
      ¬(tickedContent.toList.head? = some ' ' ∧ tickedContent.toList.getLast? = some ' ') ∧
      codeSpan tickedContent = "```  ``a` b` ```" ∧
      ∃ fence inner, IsCodeSpan (codeSpan tickedContent).toList fence inner ∧
        (∀ start count, IsRun backtick tickedContent.toList start count → count < fence) ∧
        unpadded inner = tickedContent.toList :=
  have given : tickedContent ≠ "" := by decide
  have ends : ¬(tickedContent.toList.head? = some ' ' ∧
      tickedContent.toList.getLast? = some ' ') := by decide
  ⟨given, ends, by decide, codeSpan_quotes given ends⟩

end HunkReview
