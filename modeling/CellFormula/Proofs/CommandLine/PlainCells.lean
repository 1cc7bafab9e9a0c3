import CellFormula.Proofs.CommandLine.Cells
import CellFormula.Proofs.Value.RoundTrip
/-!
# Plain cells verbatim

Any text and any number can be given to a cell. A text between two quotes is stored as it stands,
whatever it contains, a number is read back from its text, and a text that nothing is recognised in
keeps its blanks. The quotes are one byte each, so the slice between them starts and ends between
characters.
-/

namespace CellFormula.CommandLine

open Number

/-! ## Quotes -/

/-- The text between two quotes. -/
def quoted (x : String) : String :=
  .join ["\"", x, "\""]

/-- A text of at least two characters that starts and ends with a quote. -/
structure IsQuoted (text : String) : Prop where
  two_le : 2 ≤ text.length
  first : text.toList.head? = some '"'
  last : text.toList.getLast? = some '"'

theorem quoted_eq (x : String) : quoted x = "\"" ++ x ++ "\"" := by
  simp [quoted, String.join]

theorem toList_quoted (x : String) : (quoted x).toList = '"' :: (x.toList ++ ['"']) := by
  rw [quoted_eq, String.toList_append, String.toList_append]
  rfl

theorem unquote?_eq_some {cs content : List Char} :
    unquote? cs = some content ↔ cs = '"' :: (content ++ ['"']) := by
  unfold unquote?
  constructor
  · intro h
    split at h
    · split at h
      · rename_i hlast
        cases h
        rw [List.dropLast_append_getLast? _ hlast]
      · cases h
    · cases h
  · rintro rfl
    simp

theorem isQuoted_iff {text : String} : IsQuoted text ↔ ∃ x, text = quoted x := by
  constructor
  · rintro ⟨htwo, hfirst, hlast⟩
    obtain ⟨cs, hcs⟩ := List.head?_eq_some_iff.1 hfirst
    rw [← String.length_toList, hcs, List.length_cons] at htwo
    have hne : cs ≠ [] := List.ne_nil_of_length_pos (Nat.le_of_succ_le_succ htwo)
    rw [hcs, List.getLast?_cons, List.getLast?_eq_some_getLast hne] at hlast
    refine ⟨String.ofList cs.dropLast, String.toList_inj.1 ?_⟩
    rw [toList_quoted, String.toList_ofList, hcs, List.dropLast_append_getLast? _ ?_]
    rw [List.getLast?_eq_some_getLast hne]
    exact hlast
  · rintro ⟨x, rfl⟩
    refine ⟨?_, ?_, ?_⟩
    · rw [← String.length_toList, toList_quoted, List.length_cons, List.length_append]
      exact Nat.succ_le_succ (Nat.le_add_left ..)
    · rw [toList_quoted, List.head?_cons]
    · rw [toList_quoted, ← List.cons_append, List.getLast?_concat]

theorem unquote?_eq_none {text : String} (h : ¬IsQuoted text) : unquote? text.toList = none := by
  refine Option.eq_none_iff_forall_ne_some.2 fun content hcontent => h ?_
  refine isQuoted_iff.2 ⟨String.ofList content, String.toList_inj.1 ?_⟩
  rw [toList_quoted, String.toList_ofList, unquote?_eq_some.1 hcontent]

/-! ## Slices -/

theorem extract_append_append (a b c : ByteArray) :
    (a ++ b ++ c).extract a.size (a ++ b).size = b := by
  have hmiddle : (a ++ b).extract a.size (a ++ b).size = b :=
    ByteArray.extract_append_eq_right rfl ByteArray.size_append
  have hback : c.extract (a.size - (a ++ b).size) ((a ++ b).size - (a ++ b).size) = .empty := by
    rw [ByteArray.extract_eq_empty_iff, Nat.sub_self, Nat.zero_min]
    exact Nat.zero_le _
  rw [ByteArray.extract_append, hmiddle, hback, ByteArray.append_empty]

/-- The middle one of three texts that are joined is the slice between two positions, and these stand
between characters. -/
theorem exists_extract_append (front x back : String) : ∃ p q : (front ++ x ++ back).Pos,
    p.offset.byteIdx = front.utf8ByteSize ∧ q.offset.byteIdx = (front ++ x).utf8ByteSize ∧
    p ≤ q ∧ String.extract p q = x := by
  have hp : String.Pos.Raw.IsValid (front ++ x ++ back) front.rawEndPos :=
    String.Pos.Raw.isValid_iff_exists_append.2 ⟨front, x ++ back, String.append_assoc .., rfl⟩
  have hq : String.Pos.Raw.IsValid (front ++ x ++ back) (front ++ x).rawEndPos :=
    String.Pos.Raw.isValid_iff_exists_append.2 ⟨front ++ x, back, rfl, rfl⟩
  refine ⟨⟨_, hp⟩, ⟨_, hq⟩, rfl, rfl, ?_, ?_⟩
  · show front.utf8ByteSize ≤ (front ++ x).utf8ByteSize
    rw [String.utf8ByteSize_append]
    exact Nat.le_add_right ..
  · rw [← String.toByteArray_inj, String.toByteArray_extract, String.toByteArray_append,
      String.toByteArray_append]
    exact extract_append_append ..

/-- The quotes are taken off between characters. -/
theorem exists_extract_quoted (x : String) : ∃ p q : (quoted x).Pos, p.offset.byteIdx = 1 ∧
    q.offset.byteIdx + 1 = (quoted x).utf8ByteSize ∧ p ≤ q ∧ String.extract p q = x := by
  rw [quoted_eq]
  obtain ⟨p, q, hp, hq, hle, hx⟩ := exists_extract_append "\"" x "\""
  have hsize : ("\"" ++ x ++ "\"").utf8ByteSize = ("\"" ++ x).utf8ByteSize + 1 :=
    String.utf8ByteSize_append
  exact ⟨p, q, hp, by rw [hq, hsize], hle, hx⟩

/-! ## Blanks around a text -/

theorem trim_quoted (x : String) : Text.trim (quoted x) = quoted x := by
  obtain ⟨-, hfirst, hlast⟩ := isQuoted_iff.2 ⟨x, rfl⟩
  rw [Text.trim, Text.trimChars_eq_self, String.ofList_toList]
  · rw [hfirst]
    rintro c ⟨⟩
    rfl
  · rw [hlast]
    rintro c ⟨⟩
    rfl

theorem head?_of_isQuoted {raw : String} (h : IsQuoted (Text.trim raw)) :
    raw.toList.head? ≠ some '=' := by
  intro hraw
  -- An equals sign is no blank, so the trimmed text would start with it.
  obtain ⟨cs, hcs⟩ := List.head?_eq_some_iff.1 hraw
  obtain ⟨cs', htrim⟩ := Text.exists_trimChars_cons (c := '=') rfl cs
  have hfirst := h.first
  rw [Text.trim, String.toList_ofList, hcs, htrim] at hfirst
  cases hfirst

/-! ## Raw values -/

theorem parseNumber?_quoted (x : String) : parseNumber? (quoted x) = none :=
  parseNumber?_eq_none (isQuoted_iff.2 ⟨x, rfl⟩).first (by decide) (by decide)

theorem head?_formatNumber {x : Float} (h : index x ≤ infinity) :
    (formatNumber x).toList.head? ≠ some '=' := by
  intro hraw
  have hread := parseNumber?_formatNumber h
  rw [parseNumber?_eq_none hraw (by decide) (by decide)] at hread
  cases hread

section Raw
variable {raw : String}

theorem readPlain_of_number {x : Float} (h : parseNumber? (Text.trim raw) = some x) :
    readPlain raw.toList = .number x := by
  rw [Text.trim] at h
  simp only [readPlain, h]

theorem readPlain_of_quoted {x : String} (h : Text.trim raw = quoted x) :
    readPlain raw.toList = .text x := by
  have htrimmed : Text.trimChars raw.toList = '"' :: (x.toList ++ ['"']) := by
    rw [← toList_quoted, ← h, Text.trim, String.toList_ofList]
  have hnumber : parseNumber? (String.ofList (Text.trimChars raw.toList)) = none := by
    rw [← Text.trim, h, parseNumber?_quoted]
  have hcontent := unquote?_eq_some.2 htrimmed
  have htrue : Text.trimChars raw.toList ≠ ['T', 'R', 'U', 'E'] := by simp [htrimmed]
  have hfalse : Text.trimChars raw.toList ≠ ['F', 'A', 'L', 'S', 'E'] := by simp [htrimmed]
  simp only [readPlain, hnumber, if_neg htrue, if_neg hfalse, hcontent, String.ofList_toList]

theorem readPlain_of_text (hnumber : parseNumber? (Text.trim raw) = none)
    (htrue : Text.trim raw ≠ "TRUE") (hfalse : Text.trim raw ≠ "FALSE")
    (hquoted : ¬IsQuoted (Text.trim raw)) : readPlain raw.toList = .text raw := by
  have htrue' : Text.trimChars raw.toList ≠ ['T', 'R', 'U', 'E'] :=
    fun h => htrue (by rw [Text.trim, h])
  have hfalse' : Text.trimChars raw.toList ≠ ['F', 'A', 'L', 'S', 'E'] :=
    fun h => hfalse (by rw [Text.trim, h])
  have hcontent := unquote?_eq_none hquoted
  rw [Text.trim, String.toList_ofList] at hcontent
  rw [Text.trim] at hnumber
  simp only [readPlain, hnumber, if_neg htrue', if_neg hfalse', hcontent, String.ofList_toList]

end Raw

/-! ## Cells of one argument -/

/-- The argument that gives the cell this raw value makes exactly one cell, which holds the value. -/
def Stores (d : Dialect) (key : Nat) (id raw : String) (v : Value) : Prop :=
  ∃ cells, buildCells d key [.join [id, "=", raw]] = .ok cells ∧ cells.size = 1 ∧
    ∀ other, cells.get? other = if Text.trim id = other then some v else none

section Stores
variable {d : Dialect} {key : Nat} {id raw : String}

theorem assigns_join (hid : '=' ∉ id.toList) (hblank : ¬AllBlank id.toList) :
    Assigns (.join [id, "=", raw]) (Text.trim id) raw.toList := by
  refine ⟨id.toList, ?_, hid, hblank, rfl⟩
  simp [String.join]

/-- A raw value that is no formula is stored as it is read. -/
theorem stores_of_readPlain {v : Value} (hid : '=' ∉ id.toList) (hblank : ¬AllBlank id.toList)
    (hraw : raw.toList.head? ≠ some '=') (hv : readPlain raw.toList = v) : Stores d key id raw v := by
  subst hv
  have hread : readCell d (.join [id, "=", raw]) =
      .ok (Text.trim id, .plain (readPlain raw.toList)) :=
    readCell_eq_ok.2 (.plain (assigns_join hid hblank) hraw)
  have hsources : [String.join [id, "=", raw]].mapM (readCell d) =
      .ok [(Text.trim id, .plain (readPlain raw.toList))] := mapM_cons_ok hread
  refine ⟨Cells.empty.insert (Text.trim id) (readPlain raw.toList), buildCells_of_mapM hsources, ?_,
    fun other => ?_⟩
  · simp [Cells.size, Cells.insert, Cells.empty, Std.TreeMap.size_insert]
  · rw [Cells.get?_insert, Cells.get?_empty]

end Stores

/-- Every text is stored from between quotes, and every number other than NaN from its text. A value
that is neither a formula nor a number, a truth value or a quoted text is stored with the blanks
around it. A quoted text is the slice between two positions of the trimmed value. -/
theorem plain_cells_are_verbatim (d : Dialect) (key : Nat) {id : String} (hid : '=' ∉ id.toList)
    (hblank : ¬AllBlank id.toList) :
    (∀ x, Stores d key id (quoted x) (.text x)) ∧
    (∀ x : Float, x.isNaN = false → Stores d key id (formatNumber x) (.number x)) ∧
    (∀ raw, raw.toList.head? ≠ some '=' → parseNumber? (Text.trim raw) = none →
      Text.trim raw ≠ "TRUE" → Text.trim raw ≠ "FALSE" → ¬IsQuoted (Text.trim raw) →
      Stores d key id raw (.text raw)) ∧
    ∀ raw, IsQuoted (Text.trim raw) → ∃ p q : (Text.trim raw).Pos, p.offset.byteIdx = 1 ∧
      q.offset.byteIdx + 1 = (Text.trim raw).utf8ByteSize ∧ p ≤ q ∧
      Stores d key id raw (.text (String.extract p q)) := by
  have hquoted {raw x : String} (h : Text.trim raw = quoted x) : Stores d key id raw (.text x) :=
    stores_of_readPlain hid hblank (head?_of_isQuoted (isQuoted_iff.2 ⟨x, h⟩)) (readPlain_of_quoted h)
  refine ⟨fun x => hquoted (trim_quoted x), fun x hnan => ?_,
    fun raw hraw hnumber htrue hfalse hno => ?_, fun raw h => ?_⟩
  · have hle := isNaN_eq_false_iff.1 hnan
    have hread : parseNumber? (Text.trim (formatNumber x)) = some x := by
      rw [Text.trim_of_no_blank (isBlank_eq_false_of_mem_formatNumber hle),
        parseNumber?_formatNumber hle]
    exact stores_of_readPlain hid hblank (head?_formatNumber hle) (readPlain_of_number hread)
  · exact stores_of_readPlain hid hblank hraw (readPlain_of_text hnumber htrue hfalse hno)
  · obtain ⟨x, hx⟩ := isQuoted_iff.1 h
    obtain ⟨p, q, hp, hq, hle, hslice⟩ := exists_extract_quoted x
    have hstores := hquoted hx
    rw [← hslice] at hstores
    rw [hx]
    exact ⟨p, q, hp, hq, hle, hstores⟩

theorem verbatim_cells_of_padded_id :
    Stores .standard 1 " A_1 " (quoted "say \"é=1\"") (.text "say \"é=1\"") ∧
    Stores .standard 1 " A_1 " (formatNumber (-0.0)) (.number (-0.0)) ∧
    Stores .standard 1 " A_1 " " \" " (.text " \" ") := by
  have hid : '=' ∉ " A_1 ".toList := by decide +kernel
  have hblank : ¬AllBlank " A_1 ".toList :=
    fun h => absurd (h 'A' (by decide +kernel)) (by decide +kernel)
  obtain ⟨htext, hnumber, hplain, -⟩ := plain_cells_are_verbatim .standard 1 hid hblank
  have htrim : Text.trim " \" " = "\"" := by decide +kernel
  refine ⟨htext _, hnumber _ (by decide +kernel), hplain " \" " (by decide +kernel) ?_ ?_ ?_ ?_⟩
  all_goals rw [htrim]
  · decide +kernel
  · decide +kernel
  · decide +kernel
  · exact fun h => absurd h.two_le (by decide +kernel)

end CellFormula.CommandLine
