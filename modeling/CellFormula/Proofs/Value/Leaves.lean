import CellFormula.Value.Aggregate
/-!
# Leaves of values

A place in a value is a list of numbers, which count the items of collections from the outermost inwards.
Places stand in alphabetical order, as if read from left to right. The leaves are the values at places that
are no collections, and flattening lists them in this order, each once (`areLeaves_flatten`).
-/

namespace CellFormula.Value

/-! ## Flattened lists -/

section Flattening
variable {vs ws : List Value}

theorem flatten_eq_flatMap (vs : List Value) : flatten vs = vs.flatMap leaves := by
  induction vs with
  | nil => rfl
  | cons v vs ih => rw [flatten, ih, List.flatMap_cons]

theorem flatten_append : flatten (vs ++ ws) = flatten vs ++ flatten ws := by
  simp only [flatten_eq_flatMap, List.flatMap_append]

theorem flatten_cons_collection : flatten (collection vs :: ws) = flatten vs ++ flatten ws := by
  rw [flatten, leaves]

theorem flatten_perm (h : vs.Perm ws) : (flatten vs).Perm (flatten ws) := by
  rw [flatten_eq_flatMap, flatten_eq_flatMap]
  exact h.flatMap_right leaves

end Flattening

/-! ## Leaves with their places -/

/-- The value at the place. -/
def valueAt? : List Nat → Value → Option Value
  | [], v => some v
  | i :: p, collection items => items[i]?.bind (valueAt? p)
  | _ :: _, _ => none

mutual

/-- The leaves of the value with their places in it. -/
def placedLeaves : Value → List (List Nat × Value)
  | collection items => placedItems 0 items
  | v => [([], v)]

/-- The leaves of the items with their places, where the first item has the given number. -/
def placedItems (n : Nat) : List Value → List (List Nat × Value)
  | [] => []
  | v :: vs => (placedLeaves v).map (fun x => (n :: x.1, x.2)) ++ placedItems (n + 1) vs

end

mutual

theorem map_snd_placedLeaves : (v : Value) → (placedLeaves v).map Prod.snd = leaves v
  | .collection items => map_snd_placedItems 0 items
  | .text _ | .number _ | .boolean _ | .null | .error _ | .formula .. => rfl

theorem map_snd_placedItems : (n : Nat) → (vs : List Value) →
    (placedItems n vs).map Prod.snd = flatten vs
  | _, [] => rfl
  | n, v :: vs => by
    rw [placedItems, flatten, List.map_append, List.map_map, map_snd_placedItems (n + 1) vs,
      ← map_snd_placedLeaves v]
    rfl

end

theorem mem_placedItems {n : Nat} {vs : List Value} {p : List Nat} {w : Value} :
    (p, w) ∈ placedItems n vs ↔
      ∃ i q, p = (n + i) :: q ∧ ∃ v, vs[i]? = some v ∧ (q, w) ∈ placedLeaves v := by
  induction vs generalizing n with
  | nil => simp [placedItems]
  | cons v vs ih =>
    rw [placedItems, List.mem_append, ih, List.mem_map]
    constructor
    · rintro (⟨⟨q, u⟩, hq, he⟩ | ⟨i, q, rfl, u, hu, hq⟩)
      · cases he
        exact ⟨0, q, rfl, v, rfl, hq⟩
      · exact ⟨i + 1, q, by rw [Nat.add_right_comm, Nat.add_assoc], u, hu, hq⟩
    · rintro ⟨i, q, rfl, u, hu, hq⟩
      cases i with
      | zero =>
        cases hu
        exact .inl ⟨(q, w), hq, rfl⟩
      | succ i => exact .inr ⟨i, q, by rw [Nat.add_right_comm, Nat.add_assoc], u, hu, hq⟩

/-- By induction on the place: each number leads into an item. -/
theorem mem_placedLeaves {p : List Nat} {v w : Value} :
    (p, w) ∈ placedLeaves v ↔ valueAt? p v = some w ∧ w.isCollection = false := by
  induction p generalizing v with
  | nil =>
    cases v with
    | collection items =>
      have hnot : ([], w) ∉ placedItems 0 items := by simp [mem_placedItems]
      rw [placedLeaves, valueAt?]
      refine iff_of_false hnot ?_
      rintro ⟨⟨⟩, hw⟩
      cases hw
    | text | number | boolean | null | error | formula =>
      show ([], w) ∈ [([], _)] ↔ some _ = some w ∧ _
      rw [List.mem_singleton]
      constructor
      · rintro ⟨⟩
        exact ⟨rfl, rfl⟩
      · rintro ⟨⟨⟩, -⟩
        rfl
  | cons i p ih =>
    cases v with
    | collection items =>
      rw [placedLeaves, mem_placedItems, valueAt?, Option.bind_eq_some_iff]
      constructor
      · rintro ⟨j, q, hp, v, hv, hq⟩
        obtain ⟨rfl, rfl⟩ := List.cons.inj hp
        obtain ⟨hvalue, hw⟩ := ih.1 hq
        exact ⟨⟨v, by rwa [Nat.zero_add], hvalue⟩, hw⟩
      · rintro ⟨⟨v, hv, hvalue⟩, hw⟩
        exact ⟨i, p, by rw [Nat.zero_add], v, hv, ih.2 ⟨hvalue, hw⟩⟩
    | text | number | boolean | null | error | formula => simp [placedLeaves, valueAt?]

mutual

theorem pairwise_placedLeaves : (v : Value) → (placedLeaves v).Pairwise fun x y => x.1 < y.1
  | .collection items => pairwise_placedItems 0 items
  | .text _ | .number _ | .boolean _ | .null | .error _ | .formula .. => List.pairwise_singleton ..

theorem pairwise_placedItems : (n : Nat) → (vs : List Value) →
    (placedItems n vs).Pairwise fun x y => x.1 < y.1
  | _, [] => .nil
  | n, v :: vs => by
    rw [placedItems, List.pairwise_append]
    refine ⟨List.pairwise_map.2 ?_, pairwise_placedItems (n + 1) vs, ?_⟩
    · exact (pairwise_placedLeaves v).imp fun h => List.cons_lt_cons_iff.2 (.inr ⟨rfl, h⟩)
    · rintro _ hx ⟨p, w⟩ hy
      obtain ⟨x, -, rfl⟩ := List.mem_map.1 hx
      obtain ⟨i, q, rfl, -⟩ := mem_placedItems.1 hy
      exact List.cons_lt_cons_iff.2 (.inl (by omega))

end

/-- The values are the leaves of the list, each once and from left to right. -/
def AreLeaves (vs ws : List Value) : Prop :=
  ∃ placed : List (List Nat × Value), placed.map Prod.snd = ws ∧
    (placed.Pairwise fun x y => x.1 < y.1) ∧
    ∀ p w, (p, w) ∈ placed ↔ valueAt? p (collection vs) = some w ∧ w.isCollection = false

theorem areLeaves_flatten (vs : List Value) : AreLeaves vs (flatten vs) :=
  ⟨placedItems 0 vs, map_snd_placedItems 0 vs, pairwise_placedItems 0 vs, fun _ _ =>
    mem_placedLeaves (v := collection vs)⟩

theorem AreLeaves.isCollection {vs ws : List Value} (h : AreLeaves vs ws) :
    ∀ w ∈ ws, w.isCollection = false := by
  obtain ⟨placed, rfl, -, hplaced⟩ := h
  intro w hw
  obtain ⟨⟨p, _⟩, hmem, rfl⟩ := List.mem_map.1 hw
  exact ((hplaced _ _).1 hmem).2

end CellFormula.Value
