import CellFormula.Cell.Range
import CellFormula.Proofs.Cell.Id
/-!
# Ranges are rectangles

The walk from the left column of a range by `Column.next` meets the right one and stops there.
`expandRange_covers_rectangle` says that the cells of a range are those of these columns that lie in its
rows, each once, column by column and from the top down. Which two opposite corners name the range, and in
which order, makes no difference. `ids_and_cells_correspond` says which ids are read as cells at all, and
that those of a range are.
-/

namespace CellFormula

/-! ## Ends -/

namespace Column

/-- The one of two labels that comes first. -/
def leftmost (a b : String) : String :=
  if order a b = .gt then b else a

/-- The one of two labels that comes last. -/
def rightmost (a b : String) : String :=
  if order a b = .gt then a else b

section Ends
variable {a b c : String} (ha : IsLabel a) (hb : IsLabel b)
include ha hb

theorem isLabel_leftmost : IsLabel (leftmost a b) := by
  unfold leftmost
  split
  · exact hb
  · exact ha

theorem isLabel_rightmost : IsLabel (rightmost a b) := by
  unfold rightmost
  split
  · exact ha
  · exact hb

theorem order_eq_gt : order a b = .gt ↔ number b < number a := by
  rw [order_eq_compare ha hb, Nat.compare_eq_gt]

theorem number_leftmost : number (leftmost a b) = min (number a) (number b) := by
  unfold leftmost
  split
  · rename_i h
    have hlt := (order_eq_gt ha hb).1 h
    omega
  · rename_i h
    have hle := mt (order_eq_gt ha hb).2 h
    omega

theorem number_rightmost : number (rightmost a b) = max (number a) (number b) := by
  unfold rightmost
  split
  · rename_i h
    have hlt := (order_eq_gt ha hb).1 h
    omega
  · rename_i h
    have hle := mt (order_eq_gt ha hb).2 h
    omega

theorem leftmost_comm : leftmost a b = leftmost b a := by
  rw [← (isLabel_leftmost ha hb).number_inj (isLabel_leftmost hb ha), number_leftmost ha hb,
    number_leftmost hb ha, Nat.min_comm]

theorem rightmost_comm : rightmost a b = rightmost b a := by
  rw [← (isLabel_rightmost ha hb).number_inj (isLabel_rightmost hb ha), number_rightmost ha hb,
    number_rightmost hb ha, Nat.max_comm]

end Ends

/-- The labels from one to another. -/
def span (left right : String) : List String :=
  listFrom left (number right + 1 - number left)

theorem mem_span {left right c : String} (hleft : IsLabel left) (hright : IsLabel right) :
    c ∈ span left right ↔ IsLabel c ∧ order left c ≠ .gt ∧ order c right ≠ .gt := by
  rw [span, mem_listFrom hleft]
  refine and_congr_right fun hc => ?_
  rw [Ne, Ne, order_eq_gt hleft hc, order_eq_gt hc hright]
  omega

end Column

/-! ## Cells of a rectangle -/

/-- The cell stands in an earlier column, or in the same one and further up. -/
def CellId.Precedes (c c' : CellId) : Prop :=
  Column.order c.column c'.column = .lt ∨ c.column = c'.column ∧ c.row < c'.row

/-- The columns are met on the walk from the left end to the right one, and they are all the labels
between these ends. The cells are those of the columns in the rows between the corners, column by column
and from the top down. -/
structure Rectangle (a b : CellId) (columns : List String) (cells : List CellId) : Prop where
  walk : Column.Walk (Column.rightmost a.column b.column) (Column.leftmost a.column b.column) columns
  mem_columns : ∀ c, c ∈ columns ↔ Column.IsLabel c ∧
    Column.order (Column.leftmost a.column b.column) c ≠ .gt ∧
    Column.order c (Column.rightmost a.column b.column) ≠ .gt
  sorted_columns : columns.Pairwise fun c c' => Column.order c c' = .lt
  mem_cells : ∀ c, c ∈ cells ↔
    c.column ∈ columns ∧ min a.row b.row ≤ c.row ∧ c.row ≤ max a.row b.row
  sorted_cells : cells.Pairwise CellId.Precedes
  length_cells : cells.length = columns.length * (max a.row b.row - min a.row b.row + 1)

/-- The cells of some columns in the rows from `top` down to `bottom`. -/
def columnCells (columns : List String) (top bottom : Nat) : List CellId :=
  columns.flatMap fun column => (List.range' top (bottom + 1 - top)).map fun row => ⟨column, row⟩

theorem mem_columnCells {columns : List String} {top bottom : Nat} {c : CellId} :
    c ∈ columnCells columns top bottom ↔ c.column ∈ columns ∧ top ≤ c.row ∧ c.row ≤ bottom := by
  obtain ⟨column, row⟩ := c
  simp only [columnCells, List.mem_flatMap, List.mem_map, List.mem_range'_1, CellId.mk.injEq]
  constructor
  · rintro ⟨column, hcolumn, row, hrow, rfl, rfl⟩
    exact ⟨hcolumn, by omega, by omega⟩
  · rintro ⟨hcolumn, htop, hbottom⟩
    exact ⟨column, hcolumn, row, by omega, rfl, rfl⟩

theorem pairwise_columnCells {columns : List String} (top bottom : Nat)
    (h : columns.Pairwise fun c c' => Column.order c c' = .lt) :
    (columnCells columns top bottom).Pairwise CellId.Precedes := by
  refine List.pairwise_flatMap.2 ⟨fun column _ => ?_, h.imp fun {c c'} hlt => ?_⟩
  · exact List.pairwise_map.2 ((List.pairwise_lt_range' 1).imp fun hlt => .inr ⟨rfl, hlt⟩)
  · intro x hx y hy
    obtain ⟨_, -, rfl⟩ := List.mem_map.1 hx
    obtain ⟨_, -, rfl⟩ := List.mem_map.1 hy
    exact .inl hlt

theorem length_columnCells (columns : List String) (top bottom : Nat) :
    (columnCells columns top bottom).length = columns.length * (bottom + 1 - top) := by
  simp [columnCells, List.length_flatMap]

theorem rectangle_eq (a b : CellId) : rectangle a b =
    columnCells (Column.span (Column.leftmost a.column b.column) (Column.rightmost a.column b.column))
      (min a.row b.row) (max a.row b.row) := by
  by_cases h : Column.order a.column b.column = .gt
  · simp only [rectangle, Column.leftmost, Column.rightmost, if_pos h, columnCells, Column.span]
  · simp only [rectangle, Column.leftmost, Column.rightmost, if_neg h, columnCells, Column.span]

section Corners
variable {a b : CellId} (ha : a.InBounds) (hb : b.InBounds)
include ha hb

theorem rectangle_covers : ∃ columns, Rectangle a b columns (rectangle a b) := by
  have hleft := Column.isLabel_leftmost ha.isLabel hb.isLabel
  have hright := Column.isLabel_rightmost ha.isLabel hb.isLabel
  have hsorted := Column.pairwise_listFrom hleft
    (Column.number (Column.rightmost a.column b.column) + 1 -
      Column.number (Column.leftmost a.column b.column))
  rw [rectangle_eq]
  refine ⟨Column.span _ _, ?_, fun c => Column.mem_span hleft hright, hsorted,
    fun c => mem_columnCells, pairwise_columnCells _ _ hsorted, ?_⟩
  · refine Column.walk_listFrom hleft hright ?_
    rw [Column.number_leftmost ha.isLabel hb.isLabel, Column.number_rightmost ha.isLabel hb.isLabel]
    omega
  · rw [length_columnCells]
    congr 1
    omega

theorem inBounds_of_mem_rectangle {c : CellId} (hc : c ∈ rectangle a b) : c.InBounds := by
  obtain ⟨columns, h⟩ := rectangle_covers ha hb
  obtain ⟨hcolumn, htop, hbottom⟩ := (h.mem_cells c).1 hc
  have hone := ha.one_le_row
  have hone' := hb.one_le_row
  have hlast := ha.row_le
  have hlast' := hb.row_le
  exact ⟨((h.mem_columns _).1 hcolumn).1, by omega, by omega⟩

/-- No cell is listed twice, not even under another name. -/
theorem nodup_names : ((rectangle a b).map CellId.write).Nodup := by
  obtain ⟨columns, h⟩ := rectangle_covers ha hb
  refine List.pairwise_map.2 (h.sorted_cells.imp_of_mem fun {c c'} hc _ hprec hname => ?_)
  obtain rfl := (inBounds_of_mem_rectangle ha hb hc).write_inj hname
  rcases hprec with hlt | ⟨-, hlt⟩
  · rw [Column.order_eq_eq.2 rfl] at hlt
    cases hlt
  · exact Nat.lt_irrefl _ hlt

/-- The names are read as the cells that they were written for. -/
theorem map_read?_names : ((rectangle a b).map CellId.write).map CellId.read? = (rectangle a b).map some := by
  rw [List.map_map]
  exact List.map_congr_left fun c hc => (inBounds_of_mem_rectangle ha hb hc).read?_write

theorem rectangle_comm : rectangle a b = rectangle b a := by
  rw [rectangle_eq, rectangle_eq, Column.leftmost_comm ha.isLabel hb.isLabel,
    Column.rightmost_comm ha.isLabel hb.isLabel, Nat.min_comm, Nat.max_comm]

end Corners

theorem rectangle_exchange (a b : CellId) :
    rectangle ⟨a.column, b.row⟩ ⟨b.column, a.row⟩ = rectangle a b := by
  rw [rectangle_eq, rectangle_eq, Nat.min_comm, Nat.max_comm]

/-! ## Ranges -/

theorem expandRange_of_read {first last : String} {a b : CellId} (ha : CellId.read? first = some a)
    (hb : CellId.read? last = some b) :
    expandRange first last = .ok ((rectangle a b).map CellId.write) := by
  simp only [expandRange_eq, ha, hb]

theorem exists_corners {first last : String} {ids : List String} (h : expandRange first last = .ok ids) :
    ∃ a b, CellId.read? first = some a ∧ CellId.read? last = some b ∧
      ids = (rectangle a b).map CellId.write := by
  rw [expandRange_eq] at h
  split at h
  · cases h
  · cases h
  · rename_i a b ha hb
    exact ⟨a, b, ha, hb, (Except.ok.inj h).symm⟩

/-- The ids that are read as corners are the names of all cells in bounds. A range with such corners lists
the names of the cells of their rectangle, none of them twice; the other two corners name the same range,
and either of two corners can come first. A range with malformed corners is refused with the first of
them. -/
theorem expandRange_covers_rectangle (first last : String) :
    (∀ id c, CellId.read? id = some c ↔ c.InBounds ∧ id = c.write) ∧
    (∀ a b, CellId.read? first = some a → CellId.read? last = some b →
      (∃ columns cells, Rectangle a b columns cells ∧
        expandRange first last = .ok (cells.map CellId.write) ∧ (cells.map CellId.write).Nodup) ∧
      expandRange last first = expandRange first last ∧
      expandRange (CellId.write ⟨a.column, b.row⟩) (CellId.write ⟨b.column, a.row⟩) =
        expandRange first last ∧
      expandRange (CellId.write ⟨b.column, a.row⟩) (CellId.write ⟨a.column, b.row⟩) =
        expandRange first last) ∧
    (CellId.read? first = none → expandRange first last = .error (.invalidReference first)) ∧
    (∀ a, CellId.read? first = some a → CellId.read? last = none →
      expandRange first last = .error (.invalidReference last)) := by
  refine ⟨fun id c => CellId.read?_eq_some, fun a b hfirst hlast => ?_, fun hfirst => ?_,
    fun a hfirst hlast => ?_⟩
  · obtain ⟨ha, -⟩ := CellId.read?_eq_some.1 hfirst
    obtain ⟨hb, -⟩ := CellId.read?_eq_some.1 hlast
    have hab : CellId.InBounds ⟨a.column, b.row⟩ := ⟨ha.isLabel, hb.one_le_row, hb.row_le⟩
    have hba : CellId.InBounds ⟨b.column, a.row⟩ := ⟨hb.isLabel, ha.one_le_row, ha.row_le⟩
    obtain ⟨columns, hcovers⟩ := rectangle_covers ha hb
    refine ⟨⟨columns, _, hcovers, expandRange_of_read hfirst hlast, nodup_names ha hb⟩, ?_, ?_, ?_⟩
    · rw [expandRange_of_read hfirst hlast, expandRange_of_read hlast hfirst, rectangle_comm hb ha]
    · rw [expandRange_of_read hfirst hlast, expandRange_of_read hab.read?_write hba.read?_write,
        rectangle_exchange]
    · rw [expandRange_of_read hfirst hlast, expandRange_of_read hba.read?_write hab.read?_write,
        rectangle_comm hba hab, rectangle_exchange]
  · simp only [expandRange_eq, hfirst]
  · simp only [expandRange_eq, hfirst, hlast]

/-- A range across the widths of labels, named by its other two corners; one of a row beyond the last is
refused, and so is one of a small letter behind it. -/
theorem expandRange_across_widths :
    CellId.read? "AB_1" = some ⟨"AB", 1⟩ ∧ CellId.read? "Y_2" = some ⟨"Y", 2⟩ ∧
    expandRange "AB_1" "Y_2" =
      .ok ["Y_1", "Y_2", "Z_1", "Z_2", "AA_1", "AA_2", "AB_1", "AB_2"] ∧
    expandRange (CellId.write ⟨"AB", 2⟩) (CellId.write ⟨"Y", 1⟩) = expandRange "AB_1" "Y_2" ∧
    expandRange "A_18446744073709551616" "a_1" =
      .error (.invalidReference "A_18446744073709551616") ∧
    expandRange "A_18446744073709551615" "a_1" = .error (.invalidReference "a_1") := by
  have hfirst : CellId.read? "AB_1" = some ⟨"AB", 1⟩ := by decide +kernel
  have hlast : CellId.read? "Y_2" = some ⟨"Y", 2⟩ := by decide +kernel
  have hbeyond : CellId.read? "A_18446744073709551616" = none := by decide +kernel
  have hlargest : CellId.read? "A_18446744073709551615" = some ⟨"A", CellId.lastRow⟩ := by
    decide +kernel
  have hsmall : CellId.read? "a_1" = none := by decide +kernel
  obtain ⟨-, -, hexchange, -⟩ := (expandRange_covers_rectangle "AB_1" "Y_2").2.1 _ _ hfirst hlast
  exact ⟨hfirst, hlast, by decide +kernel, hexchange,
    (expandRange_covers_rectangle _ "a_1").2.2.1 hbeyond,
    (expandRange_covers_rectangle _ "a_1").2.2.2 _ hlargest hsmall⟩

/-! ## Ids -/

/-- Ids and cells correspond one to one. A cell in bounds is read from its name, and an id that is read
as a cell is its name. All other ids are refused, among them those with a row out of bounds, with a zero in
front of the row, or with any character that is no capital letter from `A` to `Z`, digit or underscore. So
two ids are never read as one cell, and the ids of a range are read as different cells. -/
theorem ids_and_cells_correspond :
    (∀ c : CellId, c.InBounds → CellId.read? c.write = some c) ∧
    (∀ id c, CellId.read? id = some c → c.InBounds ∧ id = c.write) ∧
    (∀ id, CellId.read? id = none ↔ ∀ c : CellId, c.InBounds → id ≠ c.write) ∧
    (∀ c : CellId, ¬c.InBounds → CellId.read? c.write = none) ∧
    (∀ id front back, id.toList = front ++ '_' :: '0' :: back → CellId.read? id = none) ∧
    (∀ id, ∀ x ∈ id.toList, x.isUpper = false → x.isDigit = false → x ≠ '_' → CellId.read? id = none) ∧
    (∀ id id' c, CellId.read? id = some c → CellId.read? id' = some c → id = id') ∧
    ∀ first last ids, expandRange first last = .ok ids →
      ∃ cells : List CellId, cells.Nodup ∧ ids.map CellId.read? = cells.map some := by
  refine ⟨fun c hc => hc.read?_write, fun id c h => CellId.read?_eq_some.1 h, fun id => CellId.read?_eq_none,
    fun c hc => CellId.read?_write_eq_none hc, fun id front back hid => CellId.read?_eq_none_of_zero hid,
    fun id x hx hupper hdigit hunderscore => CellId.read?_eq_none_of_mem hx hupper hdigit hunderscore,
    fun id id' c h h' => ?_, fun first last ids h => ?_⟩
  · obtain ⟨-, rfl⟩ := CellId.read?_eq_some.1 h
    obtain ⟨-, rfl⟩ := CellId.read?_eq_some.1 h'
    rfl
  · obtain ⟨a, b, hfirst, hlast, hids⟩ := exists_corners h
    obtain ⟨ha, -⟩ := CellId.read?_eq_some.1 hfirst
    obtain ⟨hb, -⟩ := CellId.read?_eq_some.1 hlast
    rw [hids]
    exact ⟨rectangle a b, (nodup_names ha hb).of_map _, map_read?_names ha hb⟩

/-- The last row of a column of two letters, and the row behind it; a line break, and a digit and a letter
of other scripts. -/
theorem ids_at_bounds :
    CellId.read? (CellId.write ⟨"AB", CellId.lastRow⟩) = some ⟨"AB", CellId.lastRow⟩ ∧
      CellId.read? (CellId.write ⟨"AB", CellId.lastRow + 1⟩) = none ∧
      CellId.read? "AB_012" = none ∧ CellId.read? "AB_12\n" = none ∧ CellId.read? "AB_1\u0662" = none ∧
      CellId.read? "\u0410B_12" = none ∧
      ∃ cells : List CellId, cells.Nodup ∧ ["Z_2", "Z_3", "AA_2", "AA_3"].map CellId.read? = cells.map some := by
  obtain ⟨hread, -, -, hbeyond, hzero, hforeign, -, hrange⟩ := ids_and_cells_correspond
  have hlabel : Column.IsLabel "AB" := by decide +kernel
  have hids : expandRange "AA_2" "Z_3" = .ok ["Z_2", "Z_3", "AA_2", "AA_3"] := by decide +kernel
  refine ⟨hread _ ⟨hlabel, by decide, Nat.le_refl _⟩, hbeyond _ fun h => ?_,
    hzero "AB_012" ['A', 'B'] ['1', '2'] (by decide +kernel), ?_, ?_, ?_, hrange _ _ _ hids⟩
  · exact absurd h.row_le (Nat.not_succ_le_self _)
  · exact hforeign "AB_12\n" '\n' (by decide +kernel) rfl rfl (by decide)
  · exact hforeign "AB_1\u0662" '\u0662' (by decide +kernel) rfl rfl (by decide)
  · exact hforeign "\u0410B_12" '\u0410' (by decide +kernel) rfl rfl (by decide)

end CellFormula
