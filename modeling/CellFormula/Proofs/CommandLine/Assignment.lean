import CellFormula.CommandLine.Cells
import CellFormula.Proofs.Text.Blank
/-!
# Single cell arguments

`Gives` says what one argument gives which cell, and `Faulty` why it gives none and how that is
reported. Each argument does exactly one of the two.
-/

namespace CellFormula.CommandLine

open CellFormula.Expr

/-- The first equals sign of the argument stands between the id and the raw value. The id is taken
without the blanks around it, and it is not empty. -/
def Assigns (arg id : String) (raw : List Char) : Prop :=
  ∃ front, arg.toList = front ++ '=' :: raw ∧ '=' ∉ front ∧ ¬AllBlank front ∧
    id = String.ofList (Text.trimChars front)

/-- What the argument gives the cell with the id: the tree of the formula behind another equals sign,
or else a plain value. -/
inductive Gives (d : Dialect) (arg id : String) : CellSource → Prop
  | plain {raw} : Assigns arg id raw → raw.head? ≠ some '=' → Gives d arg id (.plain (readPlain raw))
  | formula {text e} : Assigns arg id ('=' :: text) → parse d (String.ofList text) = .ok e →
      Gives d arg id (.formula e)

/-- Why the argument gives nothing, and how that is reported. -/
inductive Faulty (d : Dialect) (arg : String) : Failure → Prop
  | noEquals : '=' ∉ arg.toList →
      Faulty d arg ⟨.join ["Invalid cell '", arg, "': expected ID=VALUE"], none⟩
  | blankId {front raw} : arg.toList = front ++ '=' :: raw → AllBlank front →
      Faulty d arg ⟨.join ["Invalid cell '", arg, "': expected ID=VALUE"], none⟩
  | formula {id text x} : Assigns arg id ('=' :: text) → parse d (String.ofList text) = .error x →
      Faulty d arg ⟨.join ["Failed to parse formula for cell ", id], some x.message⟩

/-! ## Splitting an argument -/

section Arguments
variable {d : Dialect} {arg id : String} {raw : List Char}

theorem split_at_equals (raw : List Char) {front : List Char} (hfront : '=' ∉ front) :
    (front ++ '=' :: raw).takeWhile (· ≠ '=') = front ∧
      (front ++ '=' :: raw).dropWhile (· ≠ '=') = '=' :: raw := by
  refine span_append (fun c hc => ?_) fun c hc => ?_
  · simpa using fun h : c = '=' => hfront (h ▸ hc)
  · cases hc
    rfl

theorem splitCell?_of_equals {front : List Char} (harg : arg.toList = front ++ '=' :: raw)
    (hfront : '=' ∉ front) : splitCell? arg =
      if Text.trimChars front = [] then none
      else some (String.ofList (Text.trimChars front), raw) := by
  obtain ⟨htake, hdrop⟩ := split_at_equals raw hfront
  unfold splitCell?
  simp only [harg, htake, hdrop]

theorem splitCell?_of_not_mem (h : '=' ∉ arg.toList) : splitCell? arg = none := by
  have hdrop : arg.toList.dropWhile (· ≠ '=') = [] :=
    List.dropWhile_eq_nil_iff.2 fun c hc => by simpa using fun he : c = '=' => h (he ▸ hc)
  unfold splitCell?
  simp only [hdrop]

theorem not_mem_of_allBlank {front : List Char} (h : AllBlank front) : '=' ∉ front :=
  fun hmem => absurd (h '=' hmem) (by decide)

theorem splitCell?_eq_some : splitCell? arg = some (id, raw) ↔ Assigns arg id raw := by
  constructor
  · intro h
    by_cases hmem : '=' ∈ arg.toList
    · obtain ⟨front, raw', harg, hfront⟩ := List.eq_append_cons_of_mem hmem
      rw [splitCell?_of_equals harg hfront] at h
      split at h
      · cases h
      · rename_i hblank
        cases h
        exact ⟨front, harg, hfront, fun h => hblank (Text.trimChars_eq_nil.2 h), rfl⟩
    · rw [splitCell?_of_not_mem hmem] at h
      cases h
  · rintro ⟨front, harg, hfront, hblank, rfl⟩
    rw [splitCell?_of_equals harg hfront, if_neg fun h => hblank (Text.trimChars_eq_nil.1 h)]

theorem splitCell?_eq_none : splitCell? arg = none ↔
    '=' ∉ arg.toList ∨ ∃ front raw, arg.toList = front ++ '=' :: raw ∧ AllBlank front := by
  constructor
  · intro h
    by_cases hmem : '=' ∈ arg.toList
    · obtain ⟨front, raw, harg, hfront⟩ := List.eq_append_cons_of_mem hmem
      rw [splitCell?_of_equals harg hfront] at h
      split at h
      · rename_i hblank
        exact .inr ⟨front, raw, harg, Text.trimChars_eq_nil.1 hblank⟩
      · cases h
    · exact .inl hmem
  · rintro (hmem | ⟨front, raw, harg, hblank⟩)
    · exact splitCell?_of_not_mem hmem
    · rw [splitCell?_of_equals harg (not_mem_of_allBlank hblank),
        if_pos (Text.trimChars_eq_nil.2 hblank)]

/-! ## Reading an argument -/

theorem readCell_eq_ok {source : CellSource} :
    readCell d arg = .ok (id, source) ↔ Gives d arg id source := by
  unfold readCell
  constructor
  · intro h
    split at h
    · cases h
    · rename_i id' text hsplit
      split at h
      · rename_i e hparse
        cases h
        exact .formula (splitCell?_eq_some.1 hsplit) hparse
      · cases h
    · rename_i id' raw hraw hsplit
      cases h
      refine .plain (splitCell?_eq_some.1 hsplit) fun hhead => ?_
      obtain ⟨text, rfl⟩ := List.head?_eq_some_iff.1 hhead
      exact hraw text rfl
  · rintro (⟨hassigns, hraw⟩ | ⟨hassigns, hparse⟩)
    · rw [splitCell?_eq_some.2 hassigns]
      split
      · rename_i h
        cases h
      · rename_i h
        cases h
        exact absurd rfl hraw
      · rename_i h
        cases h
        rfl
    · simp only [splitCell?_eq_some.2 hassigns, hparse]

theorem readCell_eq_error {f : Failure} : readCell d arg = .error f ↔ Faulty d arg f := by
  unfold readCell
  constructor
  · intro h
    split at h
    · rename_i hsplit
      cases h
      rcases splitCell?_eq_none.1 hsplit with hmem | ⟨front, raw, harg, hblank⟩
      · exact .noEquals hmem
      · exact .blankId harg hblank
    · rename_i id' text hsplit
      split at h
      · cases h
      · rename_i x hparse
        cases h
        exact .formula (splitCell?_eq_some.1 hsplit) hparse
    · cases h
  · rintro (hmem | ⟨harg, hblank⟩ | ⟨hassigns, hparse⟩)
    · simp only [splitCell?_of_not_mem hmem]
    · simp only [splitCell?_eq_none.2 (.inr ⟨_, _, harg, hblank⟩)]
    · simp only [splitCell?_eq_some.2 hassigns, hparse]

end Arguments

end CellFormula.CommandLine
