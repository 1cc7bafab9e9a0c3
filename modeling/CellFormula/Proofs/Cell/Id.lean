import CellFormula.Cell.Id
import CellFormula.Proofs.Cell.Column
import CellFormula.Proofs.Number.Numeral
/-!
# Names of cells

An id is read as a cell exactly if it is the name of a cell in bounds. So each cell has one name, and a
name is read as the cell that it was written for.
-/

namespace CellFormula.CellId

open Number

/-- The column is a label, and the row counts from 1 and fits in 64 bits. -/
structure InBounds (c : CellId) : Prop where
  isLabel : Column.IsLabel c.column
  one_le_row : 1 ≤ c.row
  row_le : c.row ≤ lastRow

/-! ## Digits of rows -/

theorem isDigit_of_mem_row {n : Nat} {x : Char} (hx : x ∈ Nat.toDigits 10 n) : x.isDigit = true :=
  Nat.isDigit_of_mem_toDigits (by decide) (by decide) hx

/-- The digits of a row are the decimal text of a number in bounds. -/
theorem readRow?_eq_some {ds : List Char} {n : Nat} :
    readRow? ds = some n ↔ ds = Nat.toDigits 10 n ∧ 1 ≤ n ∧ n ≤ lastRow := by
  unfold readRow?
  constructor
  · intro h
    obtain ⟨hhead, h⟩ := Option.ite_none_right_eq_some.1 h
    obtain ⟨hread, hle⟩ := Option.filter_eq_some_iff.1 h
    obtain ⟨hne, hds, rfl⟩ := readDigits?_eq_some.1 hread
    have hsame := toDigits_digitsValue hne hds hhead
    refine ⟨hsame.symm, Nat.pos_of_ne_zero fun hzero => ?_, of_decide_eq_true hle⟩
    rw [hzero, Nat.toDigits_zero] at hsame
    simp [← hsame] at hhead
  · rintro ⟨rfl, hone, hle⟩
    have hread : readDigits? (Nat.toDigits 10 n) = some n := by
      rw [readDigits?_eq_some, digitsValue_toDigits]
      exact ⟨Nat.toDigits_ne_nil, fun _ => isDigit_of_mem_row, rfl⟩
    rw [if_pos (head?_toDigits hone), hread]
    exact Option.filter_eq_some_iff.2 ⟨rfl, decide_eq_true hle⟩

/-! ## Names -/

theorem toList_write (c : CellId) :
    c.write.toList = c.column.toList ++ '_' :: Nat.toDigits 10 c.row := by
  simp [write, String.join, Nat.repr_eq_ofList_toDigits]

/-- An id is read as a cell exactly if the cell is in bounds and the id is its name. -/
theorem read?_eq_some {id : String} {c : CellId} : read? id = some c ↔ c.InBounds ∧ id = c.write := by
  unfold read?
  dsimp only
  constructor
  · intro h
    split at h
    · rename_i digits hdrop
      split at h
      · cases h
      rename_i hne
      obtain ⟨row, hrow, rfl⟩ := Option.map_eq_some_iff.1 h
      obtain ⟨rfl, hone, hle⟩ := readRow?_eq_some.1 hrow
      have hwhole := List.takeWhile_append_dropWhile (p := Char.isUpper) (l := id.toList)
      refine ⟨⟨⟨?_, ?_⟩, hone, hle⟩, ?_⟩
      · rwa [String.toList_ofList]
      · rw [String.toList_ofList]
        exact fun _ hc => List.mem_takeWhile_imp hc
      · rw [← String.toList_inj, toList_write, String.toList_ofList, ← hdrop, hwhole]
    · cases h
  · rintro ⟨hc, rfl⟩
    have hunderscore : ∀ x ∈ ('_' :: Nat.toDigits 10 c.row).head?, x.isUpper = false := by
      intro x hx
      cases hx
      rfl
    obtain ⟨htake, hdrop⟩ := span_append hc.isLabel.isUpper hunderscore
    simp only [toList_write, htake, hdrop, if_neg hc.isLabel.ne_nil,
      readRow?_eq_some.2 ⟨rfl, hc.one_le_row, hc.row_le⟩, String.ofList_toList, Option.map_some]

section InBounds
variable {c c' : CellId} {id : String}

theorem InBounds.read?_write (h : c.InBounds) : read? c.write = some c :=
  read?_eq_some.2 ⟨h, rfl⟩

/-- The name of a cell in bounds has one underscore, which stands between the column and the row. -/
theorem InBounds.eq_parts (h : c.InBounds) {front back : List Char}
    (hname : c.write.toList = front ++ '_' :: back) :
    c.column.toList = front ∧ Nat.toDigits 10 c.row = back := by
  have hcolumn : '_' ∉ c.column.toList := fun hmem => by cases h.isLabel.isUpper _ hmem
  have hrow : '_' ∉ Nat.toDigits 10 c.row := fun hmem => by cases isDigit_of_mem_row hmem
  rw [toList_write] at hname
  obtain ⟨hfront, -, hback⟩ := (List.append_cons_inj_of_notMem hcolumn hrow).1 hname
  exact ⟨hfront, hback⟩

/-- No other cell has the name of a cell in bounds. -/
theorem InBounds.write_inj (h : c.InBounds) (hwrite : c.write = c'.write) : c = c' := by
  obtain ⟨hcolumn, hrow⟩ := h.eq_parts ((congrArg String.toList hwrite).trans (toList_write c'))
  obtain ⟨column, row⟩ := c
  obtain ⟨column', row'⟩ := c'
  obtain rfl := String.toList_inj.1 hcolumn
  obtain rfl : row = row' := by
    rw [← digitsValue_toDigits row, ← digitsValue_toDigits row', hrow]
  rfl

theorem InBounds.mem_name (h : c.InBounds) {x : Char} (hx : x ∈ c.write.toList) :
    x.isUpper = true ∨ x = '_' ∨ x.isDigit = true := by
  rw [toList_write, List.mem_append, List.mem_cons] at hx
  exact hx.imp (h.isLabel.isUpper x) (Or.imp_right isDigit_of_mem_row)

/-! ## Other ids -/

theorem read?_eq_none : read? id = none ↔ ∀ c : CellId, c.InBounds → id ≠ c.write := by
  simp only [Option.eq_none_iff_forall_ne_some, ne_eq, read?_eq_some, not_and]

/-- What is written for a column that is no label or a row out of bounds is no name. -/
theorem read?_write_eq_none (h : ¬c.InBounds) : read? c.write = none := by
  rw [read?_eq_none]
  intro c' hc' hwrite
  exact h (hc'.write_inj hwrite.symm ▸ hc')

/-- The digits of a row do not start with a zero. -/
theorem read?_eq_none_of_zero {front back : List Char} (hid : id.toList = front ++ '_' :: '0' :: back) :
    read? id = none := by
  rw [read?_eq_none]
  rintro c hc rfl
  have hzero := head?_toDigits hc.one_le_row
  rw [(hc.eq_parts hid).2] at hzero
  exact hzero rfl

/-- Line breaks, small letters and letters or digits of other scripts stand in no name. -/
theorem read?_eq_none_of_mem {x : Char} (hx : x ∈ id.toList) (hupper : x.isUpper = false)
    (hdigit : x.isDigit = false) (hunderscore : x ≠ '_') : read? id = none := by
  rw [read?_eq_none]
  rintro c hc rfl
  simpa [hupper, hdigit, hunderscore] using hc.mem_name hx

end InBounds

end CellFormula.CellId
