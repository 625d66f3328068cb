import HunkReview.Proofs.Text.Trimmed

/-! Lines joined again. A text without carriage returns that does not end in a line feed is its lines
with line feeds between them; and what is kept of a text that is trimmed is such a text. -/
namespace HunkReview.Text

/-! ### Pieces -/

/-- A character in front of a text is a line feed or goes to the first piece. -/
theorem pieces_cons (c : Char) (cs : List Char) :
    (c = '\n' ∧ pieces (c :: cs) = [] :: pieces cs) ∨
      ∃ p ps, pieces cs = p :: ps ∧ pieces (c :: cs) = (c :: p) :: ps := by
  obtain ⟨p, ps, split⟩ := List.exists_cons_of_ne_nil (pieces_ne_nil cs)
  by_cases feed : c = '\n'
  · exact .inl ⟨feed, by rw [pieces, if_pos feed]⟩
  · exact .inr ⟨p, ps, split, by rw [pieces, if_neg feed, split]⟩

theorem intercalate_pieces (cs : List Char) : ['\n'].intercalate (pieces cs) = cs := by
  induction cs with
  | nil => rfl
  | cons c cs ih =>
    rcases pieces_cons c cs with ⟨rfl, split⟩ | ⟨p, ps, tail, split⟩
    · rw [split, List.intercalate_cons_of_ne_nil (pieces_ne_nil cs), ih]
      rfl
    · rw [tail] at ih
      rw [split, List.intercalate_cons_cons_left, ih]

theorem pieces_subset {cs p : List Char} (member : p ∈ pieces cs) : p ⊆ cs := by
  induction cs generalizing p with
  | nil => simp_all [pieces]
  | cons c cs ih =>
    rcases pieces_cons c cs with ⟨rfl, split⟩ | ⟨q, qs, tail, split⟩
    · rw [split] at member
      rcases List.mem_cons.mp member with rfl | member
      · exact List.nil_subset _
      · exact List.subset_cons_of_subset _ (ih member)
    · rw [split] at member
      rw [tail] at ih
      rcases List.mem_cons.mp member with rfl | member
      · exact List.cons_subset_cons c (ih List.mem_cons_self)
      · exact List.subset_cons_of_subset _ (ih (List.mem_cons_of_mem q member))

/-- Only where a text ends in a line feed is nothing left for the last piece. -/
theorem ends_of_last_piece {cs : List Char} (given : cs ≠ [])
    (last : (pieces cs).getLast? = some []) : cs.getLast? = some '\n' := by
  induction cs with
  | nil => exact absurd rfl given
  | cons c cs ih =>
    rcases pieces_cons c cs with ⟨rfl, split⟩ | ⟨p, ps, tail, split⟩
    · rw [split, List.getLast?_cons_of_ne_nil (pieces_ne_nil cs)] at last
      by_cases empty : cs = []
      · rw [empty]
        rfl
      · rw [List.getLast?_cons_of_ne_nil empty]
        exact ih empty last
    · have more : ps ≠ [] := by
        rintro rfl
        simp [split] at last
      have filled : cs ≠ [] := by
        rintro rfl
        cases tail
        exact more rfl
      rw [split, List.getLast?_cons_of_ne_nil more] at last
      rw [List.getLast?_cons_of_ne_nil filled]
      exact ih filled (by rw [tail, List.getLast?_cons_of_ne_nil more, last])

/-! ### Lines -/

/-- Pieces that end neither in a carriage return nor in nothing are lines as they are. -/
theorem closeLines_eq_self {ps : List (List Char)} (plain : ∀ p ∈ ps, '\r' ∉ p)
    (last : ps.getLast? ≠ some []) : closeLines ps = ps := by
  fun_induction closeLines ps with
  | case1 => rfl
  | case2 p empty => simp_all
  | case3 p filled => rfl
  | case4 p q ps ih =>
    have kept : dropReturn p = p := dropReturn_of_ne fun ends =>
      plain p List.mem_cons_self (List.mem_of_getLast? ends)
    rw [kept, ih (fun r member => plain r (List.mem_cons_of_mem p member)) (by simpa using last)]

theorem lines_eq_pieces {cs : List Char} (given : cs ≠ []) (plain : '\r' ∉ cs)
    (ends : cs.getLast? ≠ some '\n') : lines cs = pieces cs :=
  closeLines_eq_self (fun _ member return_ => plain (pieces_subset member return_))
    fun last => ends (ends_of_last_piece given last)

theorem joinLines_lines {text : String} (given : text ≠ "") (plain : '\r' ∉ text.toList)
    (ends : text.toList.getLast? ≠ some '\n') : joinLines (stringLines text) = text := by
  apply String.toList_inj.mp
  have strings : (stringLines text).map String.toList = lines text.toList := by
    simp [stringLines, Function.comp_def]
  rw [joinLines, String.toList_intercalate, strings,
    lines_eq_pieces (by simpa using given) plain ends]
  exact intercalate_pieces text.toList

/-! ### Trimmed texts -/

theorem trim_trim (cs : List Char) : trim (trim cs) = trim cs := by
  have trimmed := isTrimmed_trim cs
  have again : IsTrimmed (trim cs) (trim cs) :=
    ⟨⟨[], [], by simp, by simp, by simp⟩, trimmed.starts, trimmed.ends⟩
  exact again.eq_trim.symm

theorem trim_subset (cs : List Char) : trim cs ⊆ cs :=
  List.Subset.trans (dropEndWhile_subset isBlank _) (List.dropWhile_subset _)

theorem nonBlank?_eq (text : String) : nonBlank? text =
    if trim text.toList = [] then none else some (String.ofList (trim text.toList)) := by
  unfold nonBlank?
  split <;> simp_all

/-- What is kept of a text is kept of itself. -/
theorem nonBlank?_of_kept {text kept : String} (keeps : nonBlank? text = some kept) :
    nonBlank? kept = some kept := by
  rw [nonBlank?_eq] at keeps ⊢
  split at keeps
  · cases keeps
  · next filled =>
    cases keeps
    rw [String.toList_ofList, trim_trim, if_neg filled]

/-- What is kept of a text without carriage returns comes back from its lines. -/
theorem joinLines_of_kept {text kept : String} (plain : '\r' ∉ text.toList)
    (keeps : nonBlank? text = some kept) : joinLines (stringLines kept) = kept := by
  rw [nonBlank?_eq] at keeps
  split at keeps
  · cases keeps
  · next filled =>
    cases keeps
    apply joinLines_lines
    · simpa using filled
    · rw [String.toList_ofList]
      exact fun return_ => plain (trim_subset _ return_)
    · rw [String.toList_ofList]
      intro feed
      exact absurd ((isTrimmed_trim text.toList).ends _ feed) (by decide)

end HunkReview.Text
