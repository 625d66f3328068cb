import HunkReview.Proofs.Desk.Fresh

/-! What the keys do. In normal mode there are many keys, but few things that they do; what is said of
each of these is said of all keys. -/
namespace HunkReview.Desk

/-- All that a key does in normal mode, with what it asks for. -/
inductive Effect (d : Desk) (key : Key) : Desk × Option Request → Prop
  | ignored : Effect d key (d, none)
  | said (m : Message) : Effect d key (d.say m, none)
  | moved (row : Nat) : Effect d key (d.moveTo row, none)
  | marked (c : Char) (mark : Mark) (char : key = .char c) (marks : Mark.ofKey? c = some mark) :
    Effect d key (d.onHunk mark.set, none)
  | selecting : Effect d key (d.toggleSelection, none)
  | deselected : Effect d key ({ d with anchor := none }, none)
  | commenting : Effect d key (d.startComment, none)
  | prompted (purpose : Purpose) (text : String) (whole : purpose = .feedback ∨ purpose = .request) :
    Effect d key (d.openPrompt purpose text, none)
  | helped : Effect d key ({ d with mode := .help }, none)
  | refreshing : Effect d key d.requestRefresh
  | requested (request : Request) (other : request ≠ .fetchDiff) : Effect d key (d, some request)

theorem effect_nextHunk (key : Key) (d : Desk) : d.Effect key (d.nextHunk, none) := by
  unfold nextHunk
  split
  · exact .moved _
  · exact .said _

theorem effect_previousHunk (key : Key) (d : Desk) : d.Effect key (d.previousHunk, none) := by
  unfold previousHunk
  split
  · exact .moved _
  · exact .said _

theorem effect_requestOldFile (key : Key) (d : Desk) : d.Effect key d.requestOldFile := by
  unfold requestOldFile
  split
  · exact .requested _ nofun
  · exact .said _

theorem effect_pressChar (control : Bool) (c : Char) (d : Desk) :
    d.Effect (.char c) (d.pressChar control c) := by
  cases marks : Mark.ofKey? c with
  | some mark =>
    rw [pressChar_of_mark marks]
    exact .marked c mark rfl marks
  | none =>
    unfold pressChar
    split
    case h_9 | h_10 | h_11 | h_12 | h_13 | h_14 | h_15 | h_16 => cases marks
    case h_1 => exact .requested .quit nofun
    case h_2 => exact .helped
    case h_3 | h_4 | h_5 | h_6 => exact .moved _
    case h_7 => exact effect_nextHunk _ d
    case h_8 => exact effect_previousHunk _ d
    case h_17 =>
      cases control with
      | true => exact .requested .quit nofun
      | false => exact .commenting
    case h_18 => exact .selecting
    case h_19 => exact .prompted .feedback _ (.inl rfl)
    case h_20 => exact .prompted .request _ (.inr rfl)
    case h_21 => exact .refreshing
    case h_22 => exact .requested .writeExports nofun
    case h_23 => exact effect_requestOldFile _ d
    case h_24 => exact .ignored

theorem effect_pressNormal (k : KeyPress) (d : Desk) : d.Effect k.key (d.pressNormal k) := by
  obtain ⟨key, control, alt⟩ := k
  cases key with
  | char c => exact d.effect_pressChar control c
  | down | up | pageDown | pageUp | home | endKey => exact .moved _
  | escape => exact .deselected
  | _ => exact .ignored

end HunkReview.Desk
