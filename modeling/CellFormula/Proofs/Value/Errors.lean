import CellFormula.Proofs.Value.Aggregate
import CellFormula.Value.Operator
/-!
# Errors in values

An error stands in a value by itself or inside a collection. Operators and aggregates pass errors on:
with one among the operands or arguments, at any depth, the result is an error. They make none of
their own but the type errors of operators, and those only of operands of the wrong kind.
-/

namespace CellFormula

namespace Value

/-! ## Errors in values -/

/-- An error with the message stands in the value, at any depth of collections. -/
inductive Holds (message : String) : Value → Prop
  | error : Holds message (.error message)
  | item {items v} : v ∈ items → Holds message v → Holds message (.collection items)

/-- The value is an error or a collection with one in it, at any depth. -/
def Faulty (v : Value) : Prop :=
  ∃ message, v.Holds message

section Faulty
variable {m : String} {v : Value}

theorem Holds.eq_error (h : v.Holds m) (hv : v.isCollection = false) : v = .error m := by
  cases h with
  | error => rfl
  | item => cases hv

theorem isError_eq_true : v.isError = true ↔ ∃ m, v = .error m := by
  cases v <;> simp [isError]

theorem faulty_of_isError (h : v.isError = true) : v.Faulty := by
  obtain ⟨m, rfl⟩ := isError_eq_true.1 h
  exact ⟨m, .error⟩

theorem isError_of_faulty (h : v.Faulty) (hv : v.isCollection = false) : v.isError = true := by
  obtain ⟨m, hm⟩ := h
  exact isError_eq_true.2 ⟨m, hm.eq_error hv⟩

theorem not_faulty (herror : v.isError = false) (hv : v.isCollection = false) : ¬v.Faulty :=
  fun h => by cases herror.symm.trans (isError_of_faulty h hv)

end Faulty

/-! ## Operators -/

/-- The message of an operator that has rejected its operands. -/
def IsTypeError (message : String) : Prop :=
  ∃ reason, message = .join ["TypeError: ", reason]

section Operators
variable {m : String} {v w : Value}

theorem isError_applyUnary (op : UnaryOperator) (h : v.Faulty) :
    (applyUnary op v).isError = true := by
  obtain ⟨m, hm⟩ := h
  cases hm <;> rfl

theorem isError_applyBinary (op : BinaryOperator) (h : v.Faulty ∨ w.Faulty) :
    (applyBinary op v w).isError = true := by
  unfold applyBinary
  split
  · assumption
  rename_i hv
  split
  · assumption
  rename_i hw
  split
  · rfl
  · rename_i hscalar
    simp only [Bool.or_eq_true, not_or, Bool.not_eq_true] at hv hw hscalar
    rcases h with h | h
    · exact absurd h (not_faulty hv hscalar.1)
    · exact absurd h (not_faulty hw hscalar.2)

/-- An error behind a unary operator is its operand, or the operand is neither number nor error. -/
theorem holds_applyUnary {op : UnaryOperator} (h : (applyUnary op v).Holds m) : v.Holds m ∨
    v.isError = false ∧ (∀ n, v ≠ .number n) ∧ applyUnary op v = .error m ∧ IsTypeError m := by
  cases v with
  | error => exact .inl h
  | number n => cases op <;> cases h
  | text | boolean | null | collection | formula =>
    cases h
    exact .inr ⟨rfl, nofun, rfl, _, rfl⟩

theorem not_faulty_applyScalar (op : BinaryOperator) (v w : Value) :
    ¬(applyScalar op v w).Faulty := by
  cases op with
  | add =>
    rw [applyScalar]
    split <;> exact not_faulty rfl rfl
  | subtract | multiply | divide | power => exact not_faulty rfl rfl

/-- An error behind a binary operator is one of its operands, or none is an error but one is a
collection. -/
theorem holds_applyBinary {op : BinaryOperator} (h : (applyBinary op v w).Holds m) :
    v.Holds m ∨ w.Holds m ∨ v.isError = false ∧ w.isError = false ∧
      (v.isCollection = true ∨ w.isCollection = true) ∧ applyBinary op v w = .error m ∧
      IsTypeError m := by
  by_cases hv : v.isError = true
  · rw [applyBinary, if_pos hv] at h
    exact .inl h
  by_cases hw : w.isError = true
  · rw [applyBinary, if_neg hv, if_pos hw] at h
    exact .inr (.inl h)
  by_cases hcollection : (v.isCollection || w.isCollection) = true
  · rw [applyBinary, if_neg hv, if_neg hw, if_pos hcollection] at h ⊢
    cases h
    exact .inr (.inr ⟨by simpa using hv, by simpa using hw, by simpa using hcollection, rfl, _, rfl⟩)
  · rw [applyBinary, if_neg hv, if_neg hw, if_neg hcollection] at h
    exact absurd ⟨m, h⟩ (not_faulty_applyScalar op v w)

end Operators

/-! ## Aggregates -/

mutual

theorem error_mem_leaves {m : String} : (v : Value) → (.error m ∈ leaves v ↔ v.Holds m)
  | .collection items => by
    rw [leaves, error_mem_flatten items]
    constructor
    · rintro ⟨v, hv, hm⟩
      exact .item hv hm
    · rintro (_ | ⟨hv, hm⟩)
      exact ⟨_, hv, hm⟩
  | .error message => by
    show _ ∈ [Value.error message] ↔ _
    rw [List.mem_singleton]
    exact ⟨fun h => h ▸ .error, fun h => (h.eq_error rfl).symm⟩
  | .text _ | .number _ | .boolean _ | .null | .formula .. =>
    ⟨fun h => (nomatch List.mem_singleton.1 h), nofun⟩

theorem error_mem_flatten {m : String} : (vs : List Value) →
    (.error m ∈ flatten vs ↔ ∃ v ∈ vs, v.Holds m)
  | [] => by simp [flatten]
  | v :: vs => by
    simp [flatten, error_mem_leaves v, error_mem_flatten vs]

end

section Aggregated
variable {vs : List Value} {v w : Value} {m : String}

/-- With an error among the arguments, at any depth, an aggregate answers with an error. -/
theorem Aggregated.isError (h : Aggregated (flatten vs) w) (hv : v ∈ vs) (hfaulty : v.Faulty) :
    w.isError = true := by
  obtain ⟨m, hm⟩ := hfaulty
  have hmem : .error m ∈ flatten vs := (error_mem_flatten vs).2 ⟨v, hv, hm⟩
  cases h with
  | error he => exact List.find?_some he
  | null hnone | text hnone | number hnone | item hnone => cases List.find?_eq_none.1 hnone _ hmem rfl

/-- An error that an aggregate answers with is one among its arguments. -/
theorem Aggregated.exists_holds (h : Aggregated (flatten vs) w) (hm : w.Holds m) :
    ∃ v ∈ vs, v.Holds m := by
  have hmem : w ∈ flatten vs := by
    cases h with
    | error he => exact List.mem_of_find?_eq_some he
    | null | text | number => cases hm
    | item _ hw => exact hw
  rw [hm.eq_error ((areLeaves_flatten vs).isCollection w hmem)] at hmem
  exact (error_mem_flatten vs).1 hmem

end Aggregated

end Value

end CellFormula
