import CellFormula.Cell.Column
import Mathlib
/-!
# Labels of columns

A label is one or more letters from `A` to `Z`. The label after a label has the next number, and labels
stand in the order of their numbers, so no two have the same one. So `Column.next` is the successor in
this order (`next_is_successor`), and a walk by it from one label on meets each label up to any later
one, and stops there.
-/

namespace CellFormula.Column

/-- One or more letters from `A` to `Z`. -/
structure IsLabel (column : String) : Prop where
  ne_nil : column.toList ≠ []
  isUpper : ∀ c ∈ column.toList, c.isUpper = true

instance (column : String) : Decidable (IsLabel column) :=
  decidable_of_iff (column.toList ≠ [] ∧ column.toList.all Char.isUpper = true)
    ⟨fun h => ⟨h.1, List.all_eq_true.1 h.2⟩, fun h => ⟨h.ne_nil, List.all_eq_true.2 h.isUpper⟩⟩

theorem isUpper_iff {c : Char} : c.isUpper = true ↔ 65 ≤ c.toNat ∧ c.toNat ≤ 90 := by
  simp [Char.isUpper, UInt32.le_iff_toNat_le]

/-! ## Numbers of letters -/

/-- The value of letters in bijective base 26. -/
def lettersNumber (cs : List Char) : Nat :=
  cs.foldl (fun n c => 26 * n + (c.toNat - 64)) 0

theorem number_eq (column : String) : number column = lettersNumber column.toList := rfl

theorem lettersNumber_append (cs ds : List Char) :
    lettersNumber (cs ++ ds) = lettersNumber cs * 26 ^ ds.length + lettersNumber ds := by
  induction ds using List.reverseRecOn with
  | nil => simp [lettersNumber]
  | append_singleton ds d ih =>
    have hconcat : ∀ cs : List Char,
        lettersNumber (cs ++ [d]) = 26 * lettersNumber cs + (d.toNat - 64) := by
      simp [lettersNumber]
    rw [← List.append_assoc, hconcat, hconcat, ih, List.length_append, List.length_singleton,
      Nat.pow_succ]
    ring

theorem lettersNumber_cons (c : Char) (cs : List Char) :
    lettersNumber (c :: cs) = (c.toNat - 64) * 26 ^ cs.length + lettersNumber cs := by
  simpa [lettersNumber] using lettersNumber_append [c] cs

section Letters
variable {cs ds : List Char}

theorem lettersNumber_pos (hne : cs ≠ []) (hcs : ∀ c ∈ cs, c.isUpper = true) :
    0 < lettersNumber cs := by
  obtain ⟨c, cs, rfl⟩ := List.exists_cons_of_ne_nil hne
  have hc := isUpper_iff.1 (hcs c List.mem_cons_self)
  have hpos : 0 < (c.toNat - 64) * 26 ^ cs.length := Nat.mul_pos (by omega) (by positivity)
  rw [lettersNumber_cons]
  omega

/-- Letters of one length differ by less than a power of 26. -/
theorem lettersNumber_lt_add_pow (hcs : ∀ c ∈ cs, c.isUpper = true)
    (hds : ∀ c ∈ ds, c.isUpper = true) (hlen : cs.length = ds.length) :
    lettersNumber cs < lettersNumber ds + 26 ^ ds.length := by
  induction cs generalizing ds with
  | nil =>
    rw [List.length_eq_zero_iff.1 hlen.symm]
    decide
  | cons c cs ih =>
    obtain ⟨d, ds, rfl⟩ := List.exists_cons_of_length_eq_add_one hlen.symm
    obtain ⟨hc, hcs⟩ := List.forall_mem_cons.1 hcs
    obtain ⟨hd, hds⟩ := List.forall_mem_cons.1 hds
    have hlen : cs.length = ds.length := Nat.succ.inj hlen
    have hlt := ih hcs hds hlen
    have hletters : c.toNat - 64 ≤ d.toNat - 64 + 25 := by
      have hc := isUpper_iff.1 hc
      have hd := isUpper_iff.1 hd
      omega
    have hmul := Nat.mul_le_mul_right (26 ^ ds.length) hletters
    rw [Nat.add_mul] at hmul
    rw [lettersNumber_cons, lettersNumber_cons, hlen, List.length_cons, Nat.pow_succ]
    omega

/-- Fewer letters have a smaller number: there is no letter for zero. -/
theorem lettersNumber_lt_of_length_lt (hcs : ∀ c ∈ cs, c.isUpper = true)
    (hds : ∀ c ∈ ds, c.isUpper = true) (hlen : cs.length < ds.length) :
    lettersNumber cs < lettersNumber ds := by
  -- The longer text ends in as many letters as the shorter one has.
  obtain ⟨front, back, rfl, hback⟩ : ∃ front back, ds = front ++ back ∧ back.length = cs.length := by
    refine ⟨_, _, (List.take_append_drop (ds.length - cs.length) ds).symm, ?_⟩
    rw [List.length_drop]
    omega
  obtain ⟨hfront, hback'⟩ := List.forall_mem_append.1 hds
  have hne : front ≠ [] := by
    rintro rfl
    simp [hback] at hlen
  have hlt := lettersNumber_lt_add_pow hcs hback' hback.symm
  have hle := Nat.le_mul_of_pos_left (26 ^ back.length) (lettersNumber_pos hne hfront)
  rw [lettersNumber_append]
  omega

/-- Letters of one length stand in the order of their numbers. -/
theorem lettersNumber_lt_of_lt (hcs : ∀ c ∈ cs, c.isUpper = true) (hds : ∀ c ∈ ds, c.isUpper = true)
    (hlen : cs.length = ds.length) (hlt : cs < ds) : lettersNumber cs < lettersNumber ds := by
  induction cs generalizing ds with
  | nil =>
    rw [List.length_eq_zero_iff.1 hlen.symm] at hlt
    exact absurd hlt (List.lt_irrefl [])
  | cons c cs ih =>
    obtain ⟨d, ds, rfl⟩ := List.exists_cons_of_length_eq_add_one hlen.symm
    obtain ⟨hc, hcs'⟩ := List.forall_mem_cons.1 hcs
    obtain ⟨hd, hds'⟩ := List.forall_mem_cons.1 hds
    have hlen' : cs.length = ds.length := Nat.succ.inj hlen
    rw [lettersNumber_cons, lettersNumber_cons, hlen']
    rcases List.cons_lt_cons_iff.1 hlt with hcd | ⟨rfl, hlt'⟩
    · have hletters : c.toNat - 64 + 1 ≤ d.toNat - 64 := by
        have hc := isUpper_iff.1 hc
        have hcd : c.toNat < d.toNat := hcd
        omega
      have hmul := Nat.mul_le_mul_right (26 ^ ds.length) hletters
      have hbehind := lettersNumber_lt_add_pow hcs' hds' hlen'
      rw [Nat.add_mul] at hmul
      omega
    · exact Nat.add_lt_add_left (ih hcs' hds' hlen' hlt') _

end Letters

/-! ## Letters and bytes -/

/-- The character of a byte. -/
def ofByte (b : UInt8) : Char := Char.ofNat b.toNat

/-- The byte of a letter from `A` to `Z`. -/
def IsLetter (b : UInt8) : Prop := 65 ≤ b.toNat ∧ b.toNat ≤ 90

theorem toNat_ofByte (b : UInt8) : (ofByte b).toNat = b.toNat := by
  have hlt := b.toNat_lt
  rw [ofByte, Char.toNat_ofNat, if_pos (.inl (by omega))]

theorem isUpper_ofByte {b : UInt8} : (ofByte b).isUpper = true ↔ IsLetter b := by
  rw [isUpper_iff, toNat_ofByte, IsLetter]

theorem utf8EncodeChar_upper {c : Char} (hc : c.isUpper = true) :
    String.utf8EncodeChar c = [UInt8.ofNat c.toNat] := by
  have hle : c.toNat ≤ 127 := Nat.le_trans (isUpper_iff.1 hc).2 (by decide)
  simp only [String.utf8EncodeChar, Char.toNat_val, if_pos hle]

theorem ofByte_ofNat {c : Char} (hc : c.isUpper = true) : ofByte (UInt8.ofNat c.toNat) = c := by
  have hc := (isUpper_iff.1 hc).2
  rw [ofByte, UInt8.toNat_ofNat', Nat.mod_eq_of_lt (by omega), Char.ofNat_toNat]

/-- A letter is one byte, and the byte stands for it. -/
theorem map_ofByte_bytes {column : String} (h : ∀ c ∈ column.toList, c.isUpper = true) :
    (bytes column).map ofByte = column.toList := by
  rw [bytes, List.map_flatMap, List.flatMap_congr fun c hc => by
    rw [utf8EncodeChar_upper (h c hc), List.map_singleton, ofByte_ofNat (h c hc)]]
  simp

theorem length_bytes {column : String} (h : ∀ c ∈ column.toList, c.isUpper = true) :
    (bytes column).length = column.toList.length := by
  rw [← map_ofByte_bytes h, List.length_map]

theorem isLetter_of_mem_bytes {column : String} (h : ∀ c ∈ column.toList, c.isUpper = true)
    {b : UInt8} (hb : b ∈ bytes column) : IsLetter b := by
  have hmem := List.mem_map_of_mem (f := ofByte) hb
  rw [map_ofByte_bytes h] at hmem
  exact isUpper_ofByte.1 (h _ hmem)

/-! ## The next label -/

theorem toNat_succ_of_lt {b : UInt8} (h : b < 90) : (b + 1).toNat = b.toNat + 1 := by
  have h : b.toNat < 90 := h
  rw [UInt8.toNat_add]
  exact Nat.mod_eq_of_lt (by simp; omega)

theorem increment_ne_nil (bs : List UInt8) : increment bs ≠ [] := by
  cases bs with
  | nil => simp [increment]
  | cons b bs =>
    unfold increment
    split <;> simp

theorem isLetter_increment {bs : List UInt8} (h : ∀ b ∈ bs, IsLetter b) :
    ∀ b ∈ increment bs, IsLetter b := by
  have hfirst : IsLetter 65 := ⟨by decide, by decide⟩
  induction bs with
  | nil => simpa [increment] using hfirst
  | cons b bs ih =>
    obtain ⟨hb, hbs⟩ := List.forall_mem_cons.1 h
    unfold increment
    split
    · rename_i hlt
      refine List.forall_mem_cons.2 ⟨?_, hbs⟩
      have hsucc := toNat_succ_of_lt hlt
      have hlt : b.toNat < 90 := hlt
      rw [IsLetter] at hb ⊢
      omega
    · exact List.forall_mem_cons.2 ⟨hfirst, ih hbs⟩

/-- One step of the carry: the number of the letters, whose last byte comes first, grows by one. -/
theorem lettersNumber_increment {bs : List UInt8} (h : ∀ b ∈ bs, IsLetter b) :
    lettersNumber ((increment bs).reverse.map ofByte) = lettersNumber (bs.reverse.map ofByte) + 1 := by
  have hlast : ∀ (b : UInt8) (bs : List UInt8), lettersNumber ((b :: bs).reverse.map ofByte) =
      lettersNumber (bs.reverse.map ofByte) * 26 + (b.toNat - 64) := by
    intro b bs
    rw [List.reverse_cons, List.map_append, lettersNumber_append]
    simp [lettersNumber, toNat_ofByte]
  induction bs with
  | nil => decide
  | cons b bs ih =>
    obtain ⟨hb, hbs⟩ := List.forall_mem_cons.1 h
    rw [IsLetter] at hb
    unfold increment
    split
    · rename_i hlt
      have hsucc := toNat_succ_of_lt hlt
      have hlt : b.toNat < 90 := hlt
      rw [hlast, hlast, hsucc]
      omega
    · rename_i hge
      have hge : ¬b.toNat < 90 := hge
      have hfirst : (65 : UInt8).toNat = 65 := rfl
      rw [hlast, hlast, ih hbs, hfirst]
      omega

theorem toList_next (column : String) :
    (next column).toList = (increment (bytes column).reverse).reverse.map ofByte := by
  rw [next, String.toList_ofList]
  rfl

section Labels
variable {a b c : String}

theorem IsLabel.isLetter (h : IsLabel a) : ∀ b ∈ (bytes a).reverse, IsLetter b := fun _ hb =>
  isLetter_of_mem_bytes h.isUpper (List.mem_reverse.1 hb)

theorem IsLabel.next (h : IsLabel a) : IsLabel (next a) := by
  constructor
  · simp [toList_next, increment_ne_nil]
  · intro c hc
    rw [toList_next] at hc
    obtain ⟨b, hb, rfl⟩ := List.mem_map.1 hc
    exact isUpper_ofByte.2 (isLetter_increment h.isLetter b (List.mem_reverse.1 hb))

theorem number_next (h : IsLabel a) : number (Column.next a) = number a + 1 := by
  rw [number_eq, toList_next, lettersNumber_increment h.isLetter, List.reverse_reverse,
    map_ofByte_bytes h.isUpper, number_eq]

/-! ## The order of labels -/

theorem number_lt_of_order (ha : IsLabel a) (hb : IsLabel b) (h : order a b = .lt) :
    number a < number b := by
  rw [order, length_bytes ha.isUpper, length_bytes hb.isUpper] at h
  rcases Nat.lt_trichotomy a.toList.length b.toList.length with hlen | hlen | hlen
  · exact lettersNumber_lt_of_length_lt ha.isUpper hb.isUpper hlen
  · rw [Nat.compare_eq_eq.2 hlen] at h
    have hlt : a < b := compare_lt_iff_lt.1 h
    exact lettersNumber_lt_of_lt ha.isUpper hb.isUpper hlen (String.lt_iff_toList_lt.1 hlt)
  · rw [Nat.compare_eq_gt.2 hlen] at h
    cases h

theorem order_swap (a b : String) : order b a = (order a b).swap := by
  rw [order, order, Ordering.swap_then, Nat.compare_swap, ← Std.OrientedOrd.eq_swap]

theorem order_eq_eq : order a b = .eq ↔ a = b := by
  rw [order, Ordering.then_eq_eq]
  constructor
  · rintro ⟨-, h⟩
    exact compare_eq_iff_eq.1 h
  · rintro rfl
    exact ⟨Nat.compare_eq_eq.2 rfl, compare_eq_iff_eq.2 rfl⟩

/-- Labels stand in the order of their numbers. -/
theorem order_eq_compare (ha : IsLabel a) (hb : IsLabel b) :
    order a b = compare (number a) (number b) := by
  cases h : order a b with
  | lt => exact (Nat.compare_eq_lt.2 (number_lt_of_order ha hb h)).symm
  | eq => rw [order_eq_eq.1 h, Nat.compare_eq_eq.2 rfl]
  | gt =>
    have hswap : order b a = .lt := by rw [order_swap, h]; rfl
    exact (Nat.compare_eq_gt.2 (number_lt_of_order hb ha hswap)).symm

/-- No two labels have the same number. -/
theorem IsLabel.number_inj (ha : IsLabel a) (hb : IsLabel b) : number a = number b ↔ a = b := by
  rw [← order_eq_eq, order_eq_compare ha hb, Nat.compare_eq_eq]

theorem order_eq_lt (ha : IsLabel a) (hb : IsLabel b) : order a b = .lt ↔ number a < number b := by
  rw [order_eq_compare ha hb, Nat.compare_eq_lt]

theorem isStrictTotalOrder_order :
    IsStrictTotalOrder {c // IsLabel c} fun a b => order a.val b.val = .lt where
  trichotomous a b hab hba := by
    rw [order_eq_lt a.2 b.2] at hab
    rw [order_eq_lt b.2 a.2] at hba
    exact Subtype.ext ((a.2.number_inj b.2).1 (by omega))
  irrefl a h := by
    rw [order_eq_eq.2 rfl] at h
    cases h
  trans a b c hab hbc := by
    rw [order_eq_lt a.2 b.2] at hab
    rw [order_eq_lt b.2 c.2] at hbc
    rw [order_eq_lt a.2 c.2]
    exact hab.trans hbc

/-! ## Successors -/

theorem order_next (h : IsLabel a) : order a (Column.next a) = .lt := by
  rw [order_eq_lt h h.next, number_next h]
  exact Nat.lt_succ_self _

theorem not_between_next (ha : IsLabel a) (hb : IsLabel b) :
    ¬(order a b = .lt ∧ order b (Column.next a) = .lt) := by
  rw [order_eq_lt ha hb, order_eq_lt hb ha.next, number_next ha]
  omega

/-- So many steps on, the number is so much greater. -/
theorem number_iterate_next (h : IsLabel a) (n : Nat) :
    IsLabel (Column.next^[n] a) ∧ number (Column.next^[n] a) = number a + n := by
  induction n with
  | zero => exact ⟨h, rfl⟩
  | succ n ih =>
    obtain ⟨hlabel, hnumber⟩ := ih
    rw [Function.iterate_succ_apply']
    refine ⟨hlabel.next, ?_⟩
    rw [number_next hlabel, hnumber, Nat.add_assoc]

theorem iterate_next_eq_iff (ha : IsLabel a) (hb : IsLabel b) {n : Nat} :
    Column.next^[n] a = b ↔ number a + n = number b := by
  obtain ⟨hlabel, hnumber⟩ := number_iterate_next ha n
  rw [← hlabel.number_inj hb, hnumber]

end Labels

/-- The order of labels is strict and total, and the next label is the successor of a label in it: no
label stands between the two. From a label, `next` meets each later one after as many steps as their
numbers differ by, and after no other number of steps. -/
theorem next_is_successor :
    IsStrictTotalOrder {c // IsLabel c} (fun a b => order a.val b.val = .lt) ∧
    (∀ c, IsLabel c → IsLabel (next c) ∧ order c (next c) = .lt ∧
      ∀ d, IsLabel d → ¬(order c d = .lt ∧ order d (next c) = .lt)) ∧
    ∀ a b, IsLabel a → IsLabel b → order a b = .lt →
      number a < number b ∧ ∀ n, next^[n] a = b ↔ n = number b - number a := by
  refine ⟨isStrictTotalOrder_order, fun c hc => ?_, fun a b ha hb hab => ?_⟩
  · exact ⟨hc.next, order_next hc, fun d hd => not_between_next hc hd⟩
  · have hlt := (order_eq_lt ha hb).1 hab
    refine ⟨hlt, fun n => ?_⟩
    rw [iterate_next_eq_iff ha hb]
    omega

/-- From the last label of one letter to the first of three. -/
theorem next_across_widths :
    next "ZZ" = "AAA" ∧ order "ZZ" (next "ZZ") = .lt ∧
      ¬(order "ZZ" "ZZA" = .lt ∧ order "ZZA" (next "ZZ") = .lt) ∧
      number "Z" = 26 ∧ number "AAA" = 703 ∧ next^[677] "Z" = "AAA" := by
  have hZ : IsLabel "Z" := by decide +kernel
  have hZZ : IsLabel "ZZ" := by decide +kernel
  have hZZA : IsLabel "ZZA" := by decide +kernel
  have hAAA : IsLabel "AAA" := by decide +kernel
  have horder : order "Z" "AAA" = .lt := by decide +kernel
  obtain ⟨-, hnext, hbetween⟩ := next_is_successor.2.1 "ZZ" hZZ
  obtain ⟨-, hsteps⟩ := next_is_successor.2.2 "Z" "AAA" hZ hAAA horder
  exact ⟨by decide +kernel, hnext, hbetween "ZZA" hZZA, by decide +kernel, by decide +kernel,
    (hsteps 677).2 (by decide +kernel)⟩

/-! ## Walks -/

/-- The labels met from one on, each the next after the one before it, up to the first that is `stop`. -/
inductive Walk (stop : String) : String → List String → Prop
  | last : Walk stop stop [stop]
  | step {a columns} : a ≠ stop → Walk stop (Column.next a) columns → Walk stop a (a :: columns)

section Walks
variable {a b c : String}

/-- A walk to a label that is not in front of its start ends. -/
theorem walk_listFrom (ha : IsLabel a) (hb : IsLabel b) (h : number a ≤ number b) :
    Walk b a (listFrom a (number b + 1 - number a)) := by
  obtain ⟨n, hn⟩ := Nat.exists_eq_add_of_le h
  induction n generalizing a with
  | zero =>
    obtain rfl := (ha.number_inj hb).1 hn.symm
    rw [Nat.add_sub_cancel_left]
    exact .last
  | succ n ih =>
    have hne : a ≠ b := by
      rintro rfl
      omega
    have hnext := number_next ha
    have hwalk := ih ha.next (by omega) (by omega)
    have hcount : number b + 1 - number a = number b + 1 - number (Column.next a) + 1 := by omega
    rw [hcount]
    exact .step hne hwalk

theorem mem_listFrom (ha : IsLabel a) {n : Nat} :
    c ∈ listFrom a n ↔ IsLabel c ∧ number a ≤ number c ∧ number c < number a + n := by
  induction n generalizing a with
  | zero =>
    simp only [listFrom, List.not_mem_nil, false_iff]
    omega
  | succ n ih =>
    rw [listFrom, List.mem_cons, ih ha.next, number_next ha]
    constructor
    · rintro (rfl | ⟨hc, hle, hlt⟩)
      · exact ⟨ha, by omega, by omega⟩
      · exact ⟨hc, by omega, by omega⟩
    · rintro ⟨hc, hle, hlt⟩
      rcases Nat.lt_or_eq_of_le hle with hlt' | heq
      · exact .inr ⟨hc, by omega, by omega⟩
      · exact .inl ((hc.number_inj ha).1 heq.symm)

theorem pairwise_listFrom (ha : IsLabel a) (n : Nat) :
    (listFrom a n).Pairwise fun b c => order b c = .lt := by
  induction n generalizing a with
  | zero => exact .nil
  | succ n ih =>
    refine .cons (fun c hc => ?_) (ih ha.next)
    obtain ⟨hc, hle, -⟩ := (mem_listFrom ha.next).1 hc
    rw [number_next ha] at hle
    rw [order_eq_lt ha hc]
    omega

end Walks

end CellFormula.Column
