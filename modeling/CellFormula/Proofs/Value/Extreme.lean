import CellFormula.Proofs.Number.Order
import CellFormula.Proofs.Value.Aggregate
/-!
# Which item is the extreme

The fold over the items keeps one of them and lets a later one take its place only if that one compares
as wanted. The order of values is not transitive: a text compares with a text by its characters and
with anything else by its number, and NaN compares with nothing. But among texts alone, and among items
with one text at most, it is the order of a key that each item has or lacks, and there the fold ends at
the first item with the greatest key, provided that the item it starts with has one.
-/

namespace CellFormula.Value

open Number

/-! ## Orders of values -/

section Order
variable {a b : Value} {x y : Float}

theorem numberOrder?_eq_none (h : x.isNaN = true ∨ y.isNaN = true) : numberOrder? x y = none := by
  have hxy := compare_nan h
  have hyx := compare_nan h.symm
  simp [numberOrder?, lt_iff_compare, beq_iff_compare, hxy, hyx]

theorem numberOrder?_eq (hx : x.isNaN = false) (hy : y.isNaN = false) :
    numberOrder? x y = some (compare (rank x) (rank y)) := by
  unfold numberOrder?
  simp only [lt_iff_rank hx hy, lt_iff_rank hy hx, beq_iff_rank hx hy]
  rcases Int.lt_trichotomy (rank x) (rank y) with h | h | h
  · rw [if_pos h, compare_lt_iff_lt.2 h]
  · rw [if_neg h.not_lt, if_pos h, compare_eq_iff_eq.2 h]
  · rw [if_neg h.not_gt, if_neg h.ne', if_pos h, compare_gt_iff_gt.2 h]

/-- Only two texts are compared as texts. -/
theorem order?_eq_numberOrder? (h : a.isText = false ∨ b.isText = false) :
    order? a b = numberOrder? a.toNumber b.toNumber := by
  unfold order?
  split
  · rcases h with h | h <;> cases h
  · rfl

end Order

/-! ## The first of the greatest -/

section Greatest
variable {κ : Type} [LinearOrder κ] {key : Value → Option κ} {best v r : Value} {vs : List Value}
  {wanted : Ordering} {k : κ}

/-- Both values have a key, and that of the first is greater. -/
def Beats (key : Value → Option κ) (v best : Value) : Prop :=
  ∃ j ∈ key v, ∃ k ∈ key best, k < j

/-- In front of the value all keys are less than its own, and behind it none is greater. -/
def IsFirstGreatest (key : Value → Option κ) (vs : List Value) (r : Value) : Prop :=
  ∃ before after k, vs = before ++ r :: after ∧ k ∈ key r ∧ (∀ v ∈ before, ∀ j ∈ key v, j < k) ∧
    ∀ v ∈ after, ∀ j ∈ key v, j ≤ k

theorem IsFirstGreatest.mem (h : IsFirstGreatest key vs r) : r ∈ vs := by
  obtain ⟨before, after, k, rfl, -⟩ := h
  exact List.mem_append_right _ List.mem_cons_self

theorem IsFirstGreatest.exists_key (h : IsFirstGreatest key vs r) :
    ∃ k ∈ key r, ∀ v ∈ vs, ∀ j ∈ key v, j ≤ k := by
  obtain ⟨before, after, k, rfl, hk, hbefore, hafter⟩ := h
  refine ⟨k, hk, fun v hv j hj => ?_⟩
  rcases List.mem_append.1 hv with hv | hv
  · exact (hbefore v hv j hj).le
  rcases List.mem_cons.1 hv with rfl | hv
  · exact (Option.mem_unique hj hk).le
  · exact hafter v hv j hj

/-- A value in front of one that beats it is not the first of the greatest. -/
theorem IsFirstGreatest.cons (h : IsFirstGreatest key vs r) (hv : v ∈ vs) (hbeats : Beats key v best) :
    IsFirstGreatest key (best :: vs) r := by
  obtain ⟨k, hk, hle⟩ := h.exists_key
  obtain ⟨before, after, k', rfl, hk', hbefore, hafter⟩ := h
  obtain rfl := Option.mem_unique hk hk'
  refine ⟨best :: before, after, k, rfl, hk, List.forall_mem_cons.2 ⟨fun i hi => ?_, hbefore⟩, hafter⟩
  obtain ⟨j, hj, i', hi', hlt⟩ := hbeats
  obtain rfl := Option.mem_unique hi hi'
  exact hlt.trans_le (hle v hv j hj)

/-- A value that does not beat the one in front of it changes nothing. -/
theorem IsFirstGreatest.insert (h : IsFirstGreatest key (best :: vs) r) (hbest : k ∈ key best)
    (hbeats : ¬Beats key v best) : IsFirstGreatest key (best :: v :: vs) r := by
  have hle : ∀ j ∈ key v, j ≤ k := fun j hj => not_lt.1 fun hlt => hbeats ⟨j, hj, k, hbest, hlt⟩
  obtain ⟨before, after, k', hvs, hk', hbefore, hafter⟩ := h
  cases before with
  | nil =>
    obtain ⟨rfl, rfl⟩ := List.cons.inj hvs
    obtain rfl := Option.mem_unique hbest hk'
    exact ⟨[], v :: vs, k, rfl, hbest, nofun, List.forall_mem_cons.2 ⟨hle, hafter⟩⟩
  | cons b before =>
    obtain ⟨rfl, rfl⟩ := List.cons.inj hvs
    obtain ⟨hb, hbefore⟩ := List.forall_mem_cons.1 hbefore
    have hv : ∀ j ∈ key v, j < k' := fun j hj => (hle j hj).trans_lt (hb k hbest)
    exact ⟨best :: v :: before, after, k', rfl, hk',
      List.forall_mem_cons.2 ⟨hb, List.forall_mem_cons.2 ⟨hv, hbefore⟩⟩, hafter⟩

/-- Where the wanted order is that of the keys, the fold ends at the first of the greatest. -/
theorem isFirstGreatest_extremeFrom (hbest : k ∈ key best)
    (h : (best :: vs).Pairwise fun b v => order? v b = some wanted ↔ Beats key v b) :
    IsFirstGreatest key (best :: vs) (extremeFrom wanted best vs) := by
  induction vs generalizing best k with
  | nil => exact ⟨[], [], k, rfl, hbest, nofun, nofun⟩
  | cons v vs ih =>
    obtain ⟨hfirst, hrest⟩ := List.pairwise_cons.1 h
    have hiff := hfirst v List.mem_cons_self
    rw [extremeFrom, List.foldl_cons, ← extremeFrom]
    by_cases hv : order? v best = some wanted
    · obtain ⟨j, hj, -⟩ := hiff.1 hv
      rw [if_pos hv]
      exact (ih hj hrest).cons List.mem_cons_self (hiff.1 hv)
    · rw [if_neg hv]
      refine (ih hbest ?_).insert hbest (mt hiff.2 hv)
      exact h.sublist (.cons_cons best (List.sublist_cons_self v vs))

end Greatest

/-! ## Texts -/

theorem exists_text {v : Value} (h : v.isText = true) : ∃ s, v = text s := by
  cases v with
  | text s => exact ⟨s, rfl⟩
  | _ => cases h

section Texts
variable {κ : Type} [LinearOrder κ] {best : Value} {vs : List Value} {wanted : Ordering}

/-- What a text is compared by; other values are not compared. -/
def textKey (f : String → κ) : Value → Option κ
  | text s => some (f s)
  | _ => none

/-- Among texts the fold ends at a greatest one. -/
theorem extremeFrom_texts {f : String → κ} (hwanted : ∀ s t : String, compare s t = wanted ↔ f t < f s)
    (htexts : ∀ v ∈ best :: vs, v.isText = true) :
    ∃ s, extremeFrom wanted best vs = text s ∧ ∀ t, text t ∈ best :: vs → f t ≤ f s := by
  have hpairs : (best :: vs).Pairwise fun b v => order? v b = some wanted ↔ Beats (textKey f) v b := by
    refine List.pairwise_of_forall_mem_list fun b hb v hv => ?_
    obtain ⟨s, rfl⟩ := exists_text (htexts b hb)
    obtain ⟨t, rfl⟩ := exists_text (htexts v hv)
    simp [order?, Beats, textKey, hwanted]
  obtain ⟨s, hs⟩ := exists_text (htexts best List.mem_cons_self)
  have hfirst : IsFirstGreatest (textKey f) (best :: vs) (extremeFrom wanted best vs) :=
    isFirstGreatest_extremeFrom (k := f s) (by rw [hs]; rfl) hpairs
  obtain ⟨k, hk, hle⟩ := hfirst.exists_key
  obtain ⟨t, ht⟩ := exists_text (htexts _ hfirst.mem)
  rw [ht] at hk ⊢
  cases hk
  exact ⟨t, rfl, fun u hu => hle _ hu _ rfl⟩

end Texts

/-! ## Numbers -/

/-- The number of the value is not NaN, and no other number of the list that is not NaN goes beyond it. -/
def IsExtremeNumber (le : Float → Float → Prop) (vs : List Value) (v : Value) : Prop :=
  v.toNumber.isNaN = false ∧ ∀ w ∈ vs, w.toNumber.isNaN = false → le w.toNumber v.toNumber

/-- The value is the first of the list with the property. -/
def IsFirst (P : Value → Prop) (vs : List Value) (v : Value) : Prop :=
  ∃ before after, vs = before ++ v :: after ∧ P v ∧ ∀ w ∈ before, ¬P w

/-- Of two values in different places one at least is no text. -/
theorem pairwise_of_countP {vs : List Value} (h : vs.countP isText ≤ 1) :
    vs.Pairwise fun b v => v.isText = false ∨ b.isText = false := by
  induction vs with
  | nil => exact .nil
  | cons b vs ih =>
    rw [List.countP_cons] at h
    refine .cons (fun v hv => ?_) (ih (by omega))
    by_cases hb : b.isText = true
    · rw [if_pos hb] at h
      have hnone := List.countP_eq_zero.1 (show vs.countP isText = 0 by omega) v hv
      exact .inl (by simpa using hnone)
    · exact .inr (by simpa using hb)

theorem extremeFrom_nan {wanted : Ordering} {best : Value} {vs : List Value}
    (hcount : (best :: vs).countP isText ≤ 1) (hbest : best.toNumber.isNaN = true) :
    extremeFrom wanted best vs = best := by
  have hpairs := (List.pairwise_cons.1 (pairwise_of_countP hcount)).1
  clear hcount
  induction vs with
  | nil => rfl
  | cons v vs ih =>
    obtain ⟨hv, hvs⟩ := List.forall_mem_cons.1 hpairs
    have hnone : order? v best = none := by
      rw [order?_eq_numberOrder? hv, numberOrder?_eq_none (.inr hbest)]
    rw [extremeFrom, List.foldl_cons, hnone, if_neg (by simp), ← extremeFrom, ih hvs]

section Numbers
variable {κ : Type} [LinearOrder κ] {le : Float → Float → Prop} {f : Int → κ} {best v r : Value}
  {vs : List Value} {wanted : Ordering} {k : κ}

/-- What the number of a value is compared by; NaN is not compared. -/
def numberKey (f : Int → κ) (v : Value) : Option κ :=
  if v.toNumber.isNaN then none else some (f (rank v.toNumber))

omit [LinearOrder κ] in
theorem mem_numberKey :
    k ∈ numberKey f v ↔ v.toNumber.isNaN = false ∧ k = f (rank v.toNumber) := by
  unfold numberKey
  cases v.toNumber.isNaN <;> simp [eq_comm]

theorem order?_eq_some_iff {b : Value} (hwanted : ∀ a b : Int, compare a b = wanted ↔ f b < f a)
    (htext : v.isText = false ∨ b.isText = false) :
    order? v b = some wanted ↔ Beats (numberKey f) v b := by
  rw [order?_eq_numberOrder? htext]
  by_cases hnan : v.toNumber.isNaN = true ∨ b.toNumber.isNaN = true
  · rw [numberOrder?_eq_none hnan]
    refine iff_of_false nofun ?_
    rintro ⟨j, hj, k, hk, -⟩
    rcases hnan with hnan | hnan
    · cases (mem_numberKey.1 hj).1.symm.trans hnan
    · cases (mem_numberKey.1 hk).1.symm.trans hnan
  · simp only [not_or, Bool.not_eq_true] at hnan
    rw [numberOrder?_eq hnan.1 hnan.2, Option.some_inj, hwanted]
    constructor
    · exact fun hlt => ⟨_, mem_numberKey.2 ⟨hnan.1, rfl⟩, _, mem_numberKey.2 ⟨hnan.2, rfl⟩, hlt⟩
    · rintro ⟨j, hj, k, hk, hlt⟩
      rwa [(mem_numberKey.1 hj).2, (mem_numberKey.1 hk).2] at hlt

/-- With one text at most the fold ends at the first extreme number, if it starts with a number. -/
theorem extremeFrom_numbers (hwanted : ∀ a b : Int, compare a b = wanted ↔ f b < f a)
    (hle : ∀ x y : Float, x.isNaN = false → y.isNaN = false → (le x y ↔ f (rank x) ≤ f (rank y)))
    (hcount : (best :: vs).countP isText ≤ 1) (hbest : best.toNumber.isNaN = false) :
    IsFirst (IsExtremeNumber le (best :: vs)) (best :: vs) (extremeFrom wanted best vs) := by
  have hpairs : (best :: vs).Pairwise fun b v => order? v b = some wanted ↔ Beats (numberKey f) v b :=
    (pairwise_of_countP hcount).imp (order?_eq_some_iff hwanted)
  have hfirst := isFirstGreatest_extremeFrom (mem_numberKey.2 ⟨hbest, rfl⟩) hpairs
  obtain ⟨k, hk, hgreatest⟩ := hfirst.exists_key
  obtain ⟨before, after, k', hvs, hk', hbefore, -⟩ := hfirst
  obtain rfl := Option.mem_unique hk hk'
  obtain ⟨hnan, rfl⟩ := mem_numberKey.1 hk
  refine ⟨before, after, hvs, ⟨hnan, fun w hw hwnan => ?_⟩, fun w hw hextreme => ?_⟩
  · exact (hle _ _ hwnan hnan).2 (hgreatest w hw _ (mem_numberKey.2 ⟨hwnan, rfl⟩))
  · have hmem : extremeFrom wanted best vs ∈ best :: vs := by
      rw [hvs]
      simp
    have hlt := hbefore w hw _ (mem_numberKey.2 ⟨hextreme.1, rfl⟩)
    exact hlt.not_ge ((hle _ _ hnan hextreme.1).1 (hextreme.2 _ hmem hnan))

end Numbers

/-! ## Extremes of arguments -/

/-- What is picked from a list in these orders of texts and of numbers: a last one of texts, and with one
text at most the first extreme number, unless the list starts with NaN. -/
structure IsExtreme (textLe : String → String → Prop) (numberLe : Float → Float → Prop)
    (vs : List Value) (r : Value) : Prop where
  mem : r ∈ vs
  of_texts : (∀ v ∈ vs, v.isText = true) → ∃ s, r = text s ∧ ∀ t, text t ∈ vs → textLe t s
  of_nan : vs.countP isText ≤ 1 → ∀ v ∈ vs.head?, v.toNumber.isNaN = true → r = v
  of_number : vs.countP isText ≤ 1 → ∀ v ∈ vs.head?, v.toNumber.isNaN = false →
    IsFirst (IsExtremeNumber numberLe vs) vs r

/-- There are only texts in the list, or it has one text at most and no NaN. -/
def Comparable (vs : List Value) : Prop :=
  (∀ v ∈ vs, v.isText = true) ∨ vs.countP isText ≤ 1 ∧ ∀ v ∈ vs, v.toNumber.isNaN = false

theorem extreme_eq {arguments vs : List Value} {v : Value} {wanted : Ordering}
    (hvs : flatten arguments = v :: vs) (hok : ∀ v ∈ flatten arguments, v.isError = false) :
    extreme wanted arguments = extremeFrom wanted v vs := by
  have hne : flatten arguments ≠ [] := by simp [hvs]
  rw [extreme_eq_best, firstErrorOr_of_ok (firstError?_eq_none.2 hok) hne, hvs, best]

section Directions
variable {textLe : String → String → Prop} {numberLe : Float → Float → Prop} {vs vs' : List Value}
  {r r' : Value}

theorem isExtreme_extreme {κ κ' : Type} [LinearOrder κ] [LinearOrder κ'] {f : String → κ} {g : Int → κ'}
    {wanted : Ordering} {arguments : List Value}
    (htext : ∀ s t : String, compare s t = wanted ↔ f t < f s)
    (hnumber : ∀ a b : Int, compare a b = wanted ↔ g b < g a)
    (htextLe : ∀ s t : String, textLe s t ↔ f s ≤ f t)
    (hnumberLe : ∀ x y : Float, x.isNaN = false → y.isNaN = false →
      (numberLe x y ↔ g (rank x) ≤ g (rank y)))
    (hne : flatten arguments ≠ []) (hok : ∀ v ∈ flatten arguments, v.isError = false) :
    IsExtreme textLe numberLe (flatten arguments) (extreme wanted arguments) := by
  obtain ⟨v, vs, hvs⟩ := List.exists_cons_of_ne_nil hne
  rw [extreme_eq hvs hok, hvs]
  constructor
  · exact extremeFrom_mem wanted v vs
  · intro htexts
    simp only [htextLe]
    exact extremeFrom_texts htext htexts
  · rintro hcount _ ⟨rfl⟩ hnan
    exact extremeFrom_nan hcount hnan
  · rintro hcount _ ⟨rfl⟩ hnan
    exact extremeFrom_numbers hnumber hnumberLe hcount hnan

/-- With one text at most, all texts of the list are this one. -/
theorem eq_of_countP {v w : Value} (hcount : vs.countP isText ≤ 1) (hv : v ∈ vs) (hw : w ∈ vs)
    (hvtext : v.isText = true) (hwtext : w.isText = true) : v = w := by
  by_contra hne
  have : Std.Symm fun a b : Value => b.isText = false ∨ a.isText = false := ⟨fun _ _ => Or.symm⟩
  rcases (pairwise_of_countP hcount).forall hv hw hne with h | h
  · cases h.symm.trans hwtext
  · cases h.symm.trans hvtext

theorem IsExtreme.isExtremeNumber (h : IsExtreme textLe numberLe vs r)
    (hcount : vs.countP isText ≤ 1) (hnan : ∀ v ∈ vs, v.toNumber.isNaN = false) :
    IsExtremeNumber numberLe vs r := by
  obtain ⟨v, hv⟩ := Option.isSome_iff_exists.1 (List.isSome_head?.2 (List.ne_nil_of_mem h.mem))
  obtain ⟨-, -, -, hextreme, -⟩ := h.of_number hcount v hv (hnan v (List.mem_of_mem_head? hv))
  exact hextreme

/-- The extremes of the same values in another order are equal in the order of values. -/
theorem IsExtreme.order?_eq (h : IsExtreme textLe numberLe vs r) (h' : IsExtreme textLe numberLe vs' r')
    (htextLe : ∀ s t, textLe s t → textLe t s → s = t)
    (hnumberLe : ∀ x y : Float, x.isNaN = false → y.isNaN = false → numberLe x y → numberLe y x →
      rank x = rank y)
    (hperm : vs'.Perm vs) (hvs : Comparable vs) : order? r r' = some .eq := by
  have hr' : r' ∈ vs := hperm.subset h'.mem
  have hcompare : ∀ s : String, compare s s = .eq := fun s => compare_eq_iff_eq.2 rfl
  rcases hvs with htexts | ⟨hcount, hnan⟩
  · obtain ⟨s, rfl, hs⟩ := h.of_texts htexts
    obtain ⟨t, rfl, ht⟩ := h'.of_texts fun v hv => htexts v (hperm.subset hv)
    rw [htextLe s t (ht s (hperm.symm.subset h.mem)) (hs t hr')]
    exact congrArg some (hcompare t)
  · by_cases htexts : r.isText = true ∧ r'.isText = true
    · obtain ⟨s, rfl⟩ := exists_text htexts.1
      rw [← eq_of_countP hcount h.mem hr' htexts.1 htexts.2]
      exact congrArg some (hcompare s)
    have hextreme := h.isExtremeNumber hcount hnan
    have hextreme' := h'.isExtremeNumber (hperm.countP_eq isText ▸ hcount)
      fun v hv => hnan v (hperm.subset hv)
    have hrank := hnumberLe _ _ hextreme.1 hextreme'.1
      (hextreme'.2 r (hperm.symm.subset h.mem) hextreme.1) (hextreme.2 r' hr' hextreme'.1)
    rw [order?_eq_numberOrder?, numberOrder?_eq hextreme.1 hextreme'.1, hrank, compare_eq_iff_eq.2 rfl]
    exact (not_and_or.1 htexts).imp Bool.eq_false_iff.2 Bool.eq_false_iff.2

end Directions

/-! ## Maximum and minimum -/

section Arguments
variable {arguments : List Value}

theorem isExtreme_maximum (hne : flatten arguments ≠ [])
    (hok : ∀ v ∈ flatten arguments, v.isError = false) :
    IsExtreme (fun s t => s.toList ≤ t.toList) (· ≤ ·) (flatten arguments) (maximum arguments) :=
  isExtreme_extreme (f := id) (g := id) (fun _ _ => compare_gt_iff_gt) (fun _ _ => compare_gt_iff_gt)
    (fun _ _ => String.le_iff_toList_le.symm) (fun _ _ => le_iff_rank) hne hok

theorem isExtreme_minimum (hne : flatten arguments ≠ [])
    (hok : ∀ v ∈ flatten arguments, v.isError = false) :
    IsExtreme (fun s t => t.toList ≤ s.toList) (· ≥ ·) (flatten arguments) (minimum arguments) :=
  isExtreme_extreme (f := OrderDual.toDual) (g := OrderDual.toDual)
    (fun _ _ => compare_lt_iff_lt) (fun _ _ => compare_lt_iff_lt)
    (fun _ _ => String.le_iff_toList_le.symm) (fun _ _ hx hy => le_iff_rank hy hx) hne hok

/-- Maximum and minimum are first extremes of the flattened arguments, in the order of characters and
that of numbers, and where these compare, equal ones for all arguments with the same items. -/
theorem maximum_and_minimum_are_extremes (hne : flatten arguments ≠ [])
    (hok : ∀ v ∈ flatten arguments, v.isError = false) :
    IsExtreme (fun s t => s.toList ≤ t.toList) (· ≤ ·) (flatten arguments) (maximum arguments) ∧
      IsExtreme (fun s t => t.toList ≤ s.toList) (· ≥ ·) (flatten arguments) (minimum arguments) ∧
      (∀ arguments', arguments'.Perm arguments → (flatten arguments').Perm (flatten arguments)) ∧
      (Comparable (flatten arguments) →
        ∀ arguments', (flatten arguments').Perm (flatten arguments) →
          order? (maximum arguments) (maximum arguments') = some .eq ∧
          order? (minimum arguments) (minimum arguments') = some .eq) := by
  refine ⟨isExtreme_maximum hne hok, isExtreme_minimum hne hok, fun _ => flatten_perm, ?_⟩
  intro hcomparable arguments' hperm
  have hne' : flatten arguments' ≠ [] := fun h => hne (List.nil_perm.1 (h ▸ hperm))
  have hok' : ∀ v ∈ flatten arguments', v.isError = false := fun v hv => hok v (hperm.subset hv)
  constructor
  · refine (isExtreme_maximum hne hok).order?_eq (isExtreme_maximum hne' hok') ?_ ?_ hperm hcomparable
    · exact fun s t hst hts => String.toList_inj.1 (le_antisymm hst hts)
    · exact fun x y hx hy hxy hyx =>
        le_antisymm ((le_iff_rank hx hy).1 hxy) ((le_iff_rank hy hx).1 hyx)
  · refine (isExtreme_minimum hne hok).order?_eq (isExtreme_minimum hne' hok') ?_ ?_ hperm hcomparable
    · exact fun s t hst hts => String.toList_inj.1 (le_antisymm hts hst)
    · exact fun x y hx hy hxy hyx =>
        le_antisymm ((le_iff_rank hx hy).1 hyx) ((le_iff_rank hy hx).1 hxy)

end Arguments

/-- Read from the other end, the same items have the number as their maximum and not the text. -/
theorem extremes_of_regrouped :
    let arguments := [boolean true, collection [text "3", collection [number 3]], null]
    let regrouped := [collection [null, number 3], text "3", boolean true]
    IsExtreme (fun s t => s.toList ≤ t.toList) (· ≤ ·) (flatten arguments) (maximum arguments) ∧
      (maximum arguments).isText = true ∧ (maximum regrouped).isText = false ∧
      order? (maximum arguments) (maximum regrouped) = some .eq ∧
      order? (minimum arguments) (minimum regrouped) = some .eq := by
  intro arguments regrouped
  have hne : flatten arguments ≠ [] := nofun
  have hok : ∀ v ∈ flatten arguments, v.isError = false := by decide
  have hcount : (flatten arguments).countP isText ≤ 1 := by decide
  have hnan : ∀ v ∈ flatten arguments, v.toNumber.isNaN = false := by decide +kernel
  obtain ⟨hmax, -, -, hequal⟩ := maximum_and_minimum_are_extremes hne hok
  obtain ⟨heqmax, heqmin⟩ :=
    hequal (.inr ⟨hcount, hnan⟩) regrouped (List.reverse_perm (flatten arguments))
  exact ⟨hmax, by decide +kernel, by decide +kernel, heqmax, heqmin⟩

end CellFormula.Value
