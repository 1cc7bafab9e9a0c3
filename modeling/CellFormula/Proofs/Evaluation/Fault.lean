import CellFormula.Proofs.Evaluation.Rules
/-!
# Why evaluation fails

`Expr.fault` walks over a tree in the order of evaluation and finds the first reason to fail, without
computing a value: a corner of a range that is no cell id, or a name that no function has. Where the
answers of contexts do not change with the look-ups, evaluation fails for exactly this reason, so
error values neither hide nor replace it, and if no cell holds a formula, then the cells do not
matter at all.
-/

namespace CellFormula

/-! ## The walk -/

namespace Expr

mutual

/-- The first fault of a tree, where `stored` knows the fault of what each id holds. Both operands
are looked at before they are combined, and all arguments before the name. -/
def fault (registry : Registry) (stored : String → Option EvalError) : Expr → Option EvalError
  | number _ | text _ => none
  | reference id => stored id
  | range first last =>
    match CellId.read? first, CellId.read? last with
    | none, _ => some (.invalidReference first)
    | some _, none => some (.invalidReference last)
    | some a, some b => ((rectangle a b).map CellId.write).findSome? stored
  | unary _ a => fault registry stored a
  | binary _ a b => (fault registry stored a).or (fault registry stored b)
  | call name as =>
    (faultList registry stored as).or
      (if registry.contains name then none else some (.invalidFunctionName name))

/-- The first fault among the arguments. -/
def faultList (registry : Registry) (stored : String → Option EvalError) :
    List Expr → Option EvalError
  | [] => none
  | a :: as => (fault registry stored a).or (faultList registry stored as)

end

end Expr

namespace Value

mutual

/-- The first fault of a stored value; a formula has the fault of its tree in its own context. -/
def fault (registry : Registry) : Value → Option EvalError
  | formula e _ answer => e.fault registry fun id => faultOption registry (answer [] id)
  | collection items => faultList registry items
  | _ => none
termination_by structural v => v

/-- The first fault among the values. -/
def faultList (registry : Registry) : List Value → Option EvalError
  | [] => none
  | v :: vs => (fault registry v).or (faultList registry vs)
termination_by structural vs => vs

/-- The fault of what a context answers; nothing has none. -/
def faultOption (registry : Registry) : Option Value → Option EvalError
  | none => none
  | some v => fault registry v
termination_by structural v => v

end

mutual

/-- Every context in the value gives the same answers after all look-ups. -/
def Fixed : Value → Prop
  | formula _ _ answer =>
    (∀ log id, answer log id = answer [] id) ∧ ∀ id, FixedOption (answer [] id)
  | collection items => FixedList items
  | _ => True
termination_by structural v => v

/-- All of the values are fixed. -/
def FixedList : List Value → Prop
  | [] => True
  | v :: vs => Fixed v ∧ FixedList vs
termination_by structural vs => vs

/-- What a context answers is fixed, if it answers anything. -/
def FixedOption : Option Value → Prop
  | none => True
  | some v => Fixed v
termination_by structural v => v

end

mutual

/-- Whether there is a formula in the value, at any depth of collections. -/
def hasFormula : Value → Bool
  | formula .. => true
  | collection items => hasFormulaList items
  | _ => false

/-- Whether there is a formula in any of the values. -/
def hasFormulaList : List Value → Bool
  | [] => false
  | v :: vs => hasFormula v || hasFormulaList vs

end

end Value

namespace Context

/-- The answers do not change with the look-ups, nor do those of the contexts that they hold. -/
structure Fixed (ctx : Context) : Prop where
  answer_eq : ∀ log id, ctx.answer log id = ctx.answer [] id
  stored : ∀ id, Value.FixedOption (ctx.answer [] id)

/-- The first fault of what an id holds. -/
def fault (registry : Registry) (ctx : Context) (id : String) : Option EvalError :=
  Value.faultOption registry (ctx.answer [] id)

end Context

/-! ## Fixed contexts -/

namespace Value

theorem fixedList_iff {vs : List Value} : FixedList vs ↔ ∀ v ∈ vs, v.Fixed := by
  induction vs with
  | nil => simp [FixedList]
  | cons v vs ih => rw [FixedList, ih, List.forall_mem_cons]

theorem hasFormulaList_eq_false {vs : List Value} :
    hasFormulaList vs = false ↔ ∀ v ∈ vs, v.hasFormula = false := by
  induction vs with
  | nil => simp [hasFormulaList]
  | cons v vs ih => simp [hasFormulaList, ih]

theorem fixed_ofFormula {e : Expr} {ctx : Context} : (ofFormula e ctx).Fixed ↔ ctx.Fixed :=
  ⟨fun h => ⟨h.1, h.2⟩, fun h => ⟨h.answer_eq, h.stored⟩⟩

end Value

theorem Context.Fixed.of_answer {ctx : Context} {log : List Lookup} {id : String} {v : Value}
    (h : ctx.Fixed) (hv : ctx.answer log id = some v) : v.Fixed := by
  have hstored := h.stored id
  rwa [← h.answer_eq log, hv] at hstored

/-! ## The walk finds what evaluation meets -/

section Walk
variable {registry : Registry} {stored : String → Option EvalError}

theorem Expr.faultList_eq (as : List Expr) :
    faultList registry stored as = as.findSome? (fault registry stored) := by
  induction as with
  | nil => rfl
  | cons a as ih => rw [faultList, ih, List.findSome?_cons]; cases fault registry stored a <;> rfl

/-- The walk looks at the operands of a node, at the cells that it names by itself, and at the node. -/
theorem Expr.fault_eq (e : Expr) : e.fault registry stored =
    (e.operands.findSome? (fault registry stored)).or
      (((e.ownIds coveredIds).findSome? stored).or (e.ownFault registry)) := by
  cases e with
  | range first last =>
    rw [fault, operands, ownIds, coveredIds, ownFault, expandRange_eq]
    cases CellId.read? first with
    | none => rfl
    | some a => cases CellId.read? last <;> simp [errorOf]
  | call name as => simp [fault, operands, ownIds, ownFault, faultList_eq]
  | binary op a b => cases ha : fault registry stored a <;> simp [fault, operands, ownIds, ownFault, ha]
  | _ => simp [fault, operands, ownIds, ownFault]

theorem Value.faultList_eq (vs : List Value) :
    faultList registry vs = vs.findSome? (fault registry) := by
  induction vs with
  | nil => rfl
  | cons v vs ih => rw [faultList, ih, List.findSome?_cons]; cases fault registry v <;> rfl

/-- The run fails exactly as said. -/
def HasFault {α : Type} (fault : Option EvalError) : Post α := fun _ r _ =>
  errorOf r = fault

theorem Chain.errorOf_eq {α β : Type} {fault : α → Option EvalError} {as : List α}
    {log log' : List Lookup} {r : Except EvalError (List β)}
    (h : Chain (fun a => HasFault (fault a)) as log r log') : errorOf r = as.findSome? fault := by
  induction h with
  | nil => rfl
  | cons hb _ ih => rw [List.findSome?_cons, ← hb, ← ih]; rfl
  | head ha => rw [List.findSome?_cons, ← ha]; rfl
  | tail hb _ ih => rw [List.findSome?_cons, ← hb, ← ih]; rfl

variable {fetch : String → EvalM (Option Value)}

theorem fault_eval (hread : ∀ default id, Ensures (readAs fetch default id) (HasFault (stored id)))
    (e : Expr) : Ensures (e.eval registry fetch) (HasFault (e.fault registry stored)) := by
  refine ensures_eval (Q := fun e => HasFault (e.fault registry stored))
    (R := fun _ id => HasFault (stored id)) (fun _ _ id _ => hread _ id)
    fun n _ log r log' _ hstep => ?_
  cases hstep with
  | operand h => rw [HasFault, Expr.fault_eq, ← h.errorOf_eq]; rfl
  | cell h h' => rw [HasFault, Expr.fault_eq, ← h.errorOf_eq, ← h'.errorOf_eq]; rfl
  | finish h h' =>
    rw [HasFault, Expr.fault_eq, ← h.errorOf_eq, ← h'.errorOf_eq, Expr.errorOf_finish]
    rfl

theorem fault_read {ctx : Context} (h : ctx.Fixed)
    (hstored : ∀ log id v, ctx.answer log id = some v →
      Ensures (v.resolve registry) (HasFault (v.fault registry)))
    (default : Value) (id : String) :
    Ensures (readAs (ctx.fetch registry) default id) (HasFault (ctx.fault registry id)) := by
  refine ensures_read (fun log hv => ?_) fun log v hv r log' hrun => ?_
  · rw [HasFault, Context.fault, ← h.answer_eq log, hv]
    rfl
  · rw [Context.fault, ← h.answer_eq log, hv]
    exact hstored log id v hv (⟨ctx.key, id⟩ :: log) r log' hrun

theorem fault_resolve (v : Value) :
    v.Fixed → Ensures (v.resolve registry) (HasFault (v.fault registry)) := by
  induction v using Value.induction with
  | text _ | number _ | boolean _ | null | error _ => exact fun _ => ensures_pure fun _ => rfl
  | collection items ih =>
    intro h
    rw [Value.resolve_collection, Value.fault, Value.faultList_eq]
    refine (Ensures.mapM fun v hv => ih v hv (Value.fixedList_iff.1 h v hv)).map fun hchain => ?_
    rw [HasFault, errorOf_map, hchain.errorOf_eq]
  | formula e ctx ih =>
    intro h
    have hctx : ctx.Fixed := Value.fixed_ofFormula.1 h
    have hstored := fun log id v hv => ih log id v hv (hctx.of_answer hv)
    rw [Value.resolve_ofFormula]
    exact fault_eval (fault_read hctx hstored) e

theorem fault_evaluate {ctx : Context} (h : ctx.Fixed) (e : Expr) :
    Ensures (e.evaluate registry ctx) (HasFault (e.fault registry (ctx.fault registry))) :=
  fault_resolve (.ofFormula e ctx) (Value.fixed_ofFormula.2 h)

end Walk

/-! ## Values without formulas -/

section Plain
variable {registry : Registry}

/-- Of stored values only formulas have faults; an error value has none. -/
theorem fault_of_hasFormula (v : Value) : v.hasFormula = false → v.fault registry = none := by
  induction v using Value.induction with
  | text _ | number _ | boolean _ | null | error _ => exact fun _ => rfl
  | collection items ih =>
    intro h
    rw [Value.fault, Value.faultList_eq, List.findSome?_eq_none_iff]
    exact fun v hv => ih v hv (Value.hasFormulaList_eq_false.1 h v hv)
  | formula => nofun

theorem Context.fault_eq_none {ctx : Context}
    (h : ∀ id v, ctx.answer [] id = some v → v.hasFormula = false) :
    ctx.fault registry = fun _ => none := by
  funext id
  unfold Context.fault
  cases hv : ctx.answer [] id with
  | none => rfl
  | some v => exact fault_of_hasFormula v (h id v hv)

end Plain

/-- In a fixed context evaluation fails exactly with the first fault of the tree, and has a value
exactly if there is none, whatever has been looked up before. Where no cell holds a formula, the
fault is one of the tree and the registry alone. -/
theorem evaluate_fails_iff_fault {registry : Registry} {ctx : Context} (h : ctx.Fixed) (e : Expr)
    (log : List Lookup) :
    (∀ x, ((e.evaluate registry ctx).run log).1 = .error x ↔
      e.fault registry (ctx.fault registry) = some x) ∧
    ((∃ v, ((e.evaluate registry ctx).run log).1 = .ok v) ↔
      e.fault registry (ctx.fault registry) = none) ∧
    ((∀ id v, ctx.answer [] id = some v → v.hasFormula = false) →
      e.fault registry (ctx.fault registry) = e.fault registry fun _ => none) := by
  have hfault : errorOf ((e.evaluate registry ctx).run log).1 =
      e.fault registry (ctx.fault registry) := fault_evaluate h e log _ _ rfl
  refine ⟨fun x => ?_, ?_, fun hcells => ?_⟩
  · rw [← hfault, errorOf_eq_some]
  · rw [← hfault, errorOf_eq_none]
  · rw [Context.fault_eq_none hcells]

theorem evaluate_fails_behind_error_value :
    (Context.mk 0 fun _ id => if id = "A_1" then some (.error "#REF") else none).Fixed ∧
    (((Expr.binary .add (.reference "A_1") (.call "SUM" [.range "x" "A_1"])).evaluate .empty
      (Context.mk 0 fun _ id => if id = "A_1" then some (.error "#REF") else none)).run []).1 =
        .error (.invalidReference "x") := by
  have hfixed :
      (Context.mk 0 fun _ id => if id = "A_1" then some (.error "#REF") else none).Fixed := by
    refine ⟨fun _ _ => rfl, fun id => ?_⟩
    dsimp only
    split <;> trivial
  exact ⟨hfixed, ((evaluate_fails_iff_fault hfixed _ []).1 _).2 (by decide +kernel)⟩

end CellFormula
