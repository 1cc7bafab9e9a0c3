import CellFormula.Proofs.Evaluation.Fault
import CellFormula.Proofs.Value.Aggregate
/-!
# Values without formulas

Evaluation reads through every formula that it meets, so its results hold none, at any depth of
collections, as long as no registered function makes one. Reading a value without formulas leaves it
as it is, and so a second reading changes nothing.
-/

namespace CellFormula

namespace Value

/-! ## Operators -/

theorem hasFormula_of_isError {v : Value} (h : v.isError = true) : v.hasFormula = false := by
  cases v <;> simp_all [isError, hasFormula]

theorem hasFormula_applyUnary (op : UnaryOperator) (v : Value) :
    (applyUnary op v).hasFormula = false := by
  cases v <;> cases op <;> rfl

theorem hasFormula_applyScalar (op : BinaryOperator) (a b : Value) :
    (applyScalar op a b).hasFormula = false := by
  cases op with
  | add => simp only [applyScalar]; split <;> rfl
  | _ => rfl

theorem hasFormula_applyBinary (op : BinaryOperator) (a b : Value) :
    (applyBinary op a b).hasFormula = false := by
  unfold applyBinary
  split
  · exact hasFormula_of_isError ‹_›
  split
  · exact hasFormula_of_isError ‹_›
  split
  · rfl
  · exact hasFormula_applyScalar op a b

/-! ## Aggregates -/

mutual

theorem hasFormula_leaves : (v : Value) → v.hasFormula = false →
    ∀ w ∈ leaves v, w.hasFormula = false
  | .collection items => fun h => hasFormula_flatten items h
  | .text _ | .number _ | .boolean _ | .null | .error _ => fun h w hw => by
    cases List.mem_singleton.1 hw
    exact h
  | .formula .. => fun h => by cases h

theorem hasFormula_flatten : (vs : List Value) → hasFormulaList vs = false →
    ∀ w ∈ flatten vs, w.hasFormula = false
  | [] => fun _ w hw => by cases hw
  | v :: vs => by
    intro h w hw
    obtain ⟨hv, hvs⟩ : v.hasFormula = false ∧ hasFormulaList vs = false := by
      simpa [hasFormulaList] using h
    rcases List.mem_append.1 hw with hw | hw
    · exact hasFormula_leaves v hv w hw
    · exact hasFormula_flatten vs hvs w hw

end

theorem Aggregated.hasFormula {vs : List Value} {v : Value}
    (h : ∀ w ∈ vs, w.hasFormula = false) : Aggregated vs v → v.hasFormula = false
  | .error he => h v (List.mem_of_find?_eq_some he)
  | .null _ | .text _ | .number _ => rfl
  | .item _ hv => h v hv

end Value

namespace Registry

/-- No function makes a formula out of arguments without formulas. -/
def FormulaFree (registry : Registry) : Prop :=
  ∀ name f, registry.get? name = some f →
    ∀ vs, Value.hasFormulaList vs = false → (f vs).hasFormula = false

theorem formulaFree_builtin : builtin.FormulaFree :=
  fun _ _ h vs hvs => (aggregated_builtin h vs).hasFormula (Value.hasFormula_flatten vs hvs)

end Registry

/-! ## Evaluation -/

section Evaluation
variable {registry : Registry} {vs ws : List Value}

/-- There is no formula in the result, at any depth. -/
def HoldsNoFormula : Post Value := fun _ r _ =>
  ∀ v, r = .ok v → v.hasFormula = false

theorem Chain.hasFormulaList {α : Type} {as : List α} {log log' : List Lookup}
    (h : Chain (fun _ => HoldsNoFormula) as log (.ok vs) log') : Value.hasFormulaList vs = false := by
  refine Value.hasFormulaList_eq_false.2 fun v hv => ?_
  obtain ⟨_, _, _, _, _, _, hfree, -⟩ := h.exists_item hv
  exact hfree v rfl

theorem hasFormula_finish (hregistry : registry.FormulaFree) {e : Expr} {v : Value}
    (hvs : Value.hasFormulaList vs = false) (hws : Value.hasFormulaList ws = false)
    (h : e.finish registry vs ws = .ok v) : v.hasFormula = false := by
  cases e with
  | number | text => cases h; rfl
  | reference id =>
    cases h
    cases ws with
    | nil => rfl
    | cons w ws => exact Value.hasFormulaList_eq_false.1 hws w List.mem_cons_self
  | range first last =>
    rw [Expr.eq_collection_of_finish h]
    exact hws
  | unary op a => cases h; exact Value.hasFormula_applyUnary op _
  | binary op a b => cases h; exact Value.hasFormula_applyBinary op _ _
  | call name as =>
    obtain ⟨f, hget, rfl⟩ := Expr.exists_function_of_finish h
    exact hregistry name f hget vs hvs

theorem noFormula_eval (hregistry : registry.FormulaFree) {fetch : String → EvalM (Option Value)}
    (hread : ∀ default : Value, default.hasFormula = false → ∀ id,
      Ensures (readAs fetch default id) HoldsNoFormula) (e : Expr) :
    Ensures (e.eval registry fetch) HoldsNoFormula := by
  refine ensures_eval (Q := fun _ => HoldsNoFormula) (R := fun _ _ => HoldsNoFormula)
    (fun n _ id _ => hread n.missing (by cases n <;> rfl) id) fun n _ log r log' _ hstep => ?_
  cases hstep with
  | operand | cell => nofun
  | finish h h' => exact fun v => hasFormula_finish hregistry h.hasFormulaList h'.hasFormulaList

theorem noFormula_resolve (hregistry : registry.FormulaFree) (v : Value) :
    Ensures (v.resolve registry) HoldsNoFormula := by
  induction v using Value.induction with
  | text _ | number _ | boolean _ | null | error _ =>
    exact ensures_pure fun _ _ hv => by cases hv; rfl
  | collection items ih =>
    rw [Value.resolve_collection]
    refine (Ensures.mapM ih).map fun {_ r _} hchain w hw => ?_
    cases r with
    | error err => cases hw
    | ok ws => cases hw; exact hchain.hasFormulaList
  | formula e ctx ih =>
    rw [Value.resolve_ofFormula]
    refine noFormula_eval hregistry (fun default hdefault id => ?_) e
    refine ensures_read (fun _ _ v hv => ?_) fun log v hv r log' => ih log id v hv _ r log'
    cases hv
    exact hdefault

/-- There is nothing to look up in a value without formulas. -/
theorem resolve_of_hasFormula (v : Value) : v.hasFormula = false → v.resolve registry = pure v := by
  induction v using Value.induction with
  | text _ | number _ | boolean _ | null | error _ => exact fun _ => rfl
  | collection items ih =>
    intro h
    have hitems : items.mapM (Value.resolve registry) = pure items := by
      have hitem : ∀ v ∈ items, v.resolve registry = pure v :=
        fun v hv => ih v hv (Value.hasFormulaList_eq_false.1 h v hv)
      rw [mapM_congr hitem, List.mapM_pure, List.map_id']
    rw [Value.resolve_collection, hitems, pure_bind]
  | formula => nofun

theorem resolveOption_of_hasFormula (v : Option Value)
    (h : ∀ w, v = some w → w.hasFormula = false) : Value.resolveOption registry v = pure v := by
  cases v with
  | none => rfl
  | some w => rw [Value.resolveOption, resolve_of_hasFormula w (h w rfl), pure_bind]

end Evaluation

/-- What evaluation and reading yield holds no formula at any depth, if the functions of the
registry make none, as the built-in ones do not. Reading a value without formulas looks nothing up
and leaves the value as it is, so what has been read once reads as itself. -/
theorem results_hold_no_formula (registry : Registry) :
    (registry.FormulaFree →
      (∀ (e : Expr) (ctx : Context) (log : List Lookup) (v : Value),
        ((e.evaluate registry ctx).run log).1 = .ok v → v.hasFormula = false) ∧
      ∀ (u : Value) (log : List Lookup) (v : Value), ((u.resolve registry).run log).1 = .ok v →
        v.hasFormula = false ∧ ∀ log', (v.resolve registry).run log' = (.ok v, log')) ∧
    (∀ v : Value, v.hasFormula = false → v.resolve registry = pure v) ∧
    Registry.builtin.FormulaFree := by
  refine ⟨fun hregistry => ⟨fun e ctx log v hv => ?_, fun u log v hv => ?_⟩,
    resolve_of_hasFormula, Registry.formulaFree_builtin⟩
  · exact noFormula_resolve hregistry (.ofFormula e ctx) log _ _ rfl v hv
  · have hfree : v.hasFormula = false := noFormula_resolve hregistry u log _ _ rfl v hv
    refine ⟨hfree, fun log' => ?_⟩
    rw [resolve_of_hasFormula v hfree]
    rfl

theorem resolve_nested_formula :
    Registry.builtin.FormulaFree ∧
    ∃ v, (((Value.collection [.null, .ofFormula (.call "MAX" [.range "A_1" "A_2"])
        ⟨0, fun _ _ => some (.collection [.text "a"])⟩]).resolve .builtin).run []).1 = .ok v ∧
      v.hasFormula = false ∧ ∀ log, (v.resolve .builtin).run log = (.ok v, log) := by
  obtain ⟨v, hv⟩ : ∃ v, (((Value.collection [.null, .ofFormula (.call "MAX" [.range "A_1" "A_2"])
      ⟨0, fun _ _ => some (.collection [.text "a"])⟩]).resolve .builtin).run []).1 = .ok v :=
    errorOf_eq_none.1 (by decide +kernel)
  have hbuiltin : Registry.builtin.FormulaFree := (results_hold_no_formula .builtin).2.2
  exact ⟨hbuiltin, v, hv, ((results_hold_no_formula .builtin).1 hbuiltin).2 _ [] v hv⟩

end CellFormula
