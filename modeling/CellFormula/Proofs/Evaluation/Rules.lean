import CellFormula.Proofs.Evaluation.Run
import CellFormula.Proofs.Expr.Nodes
/-!
# Rules of evaluation

Evaluation takes one step at each node: it evaluates the operands of the node, reads the cells that the
node names by itself, and then finishes with the node, where alone an error can come up. `ensures_eval`
is the rule for trees, with what is known of the operands and cells as the premises of a step, and
`ensures_read` the rule for cells. A stored value is read along its own structure, by `Value.induction`.
That look-ups are only added is shown by these rules.
-/

namespace CellFormula

/-- The error of a result. -/
def errorOf {α ε : Type} : Except ε α → Option ε
  | .ok _ => none
  | .error x => some x

theorem errorOf_eq_some {α ε : Type} {r : Except ε α} {x : ε} :
    errorOf r = some x ↔ r = .error x := by
  cases r <;> simp [errorOf]

theorem errorOf_eq_none {α ε : Type} {r : Except ε α} : errorOf r = none ↔ ∃ a, r = .ok a := by
  cases r <;> simp [errorOf]

theorem errorOf_map {α β ε : Type} (f : α → β) (r : Except ε α) : errorOf (r.map f) = errorOf r := by
  cases r <;> rfl

theorem contains_eq (registry : Registry) (name : String) :
    registry.contains name = (registry.get? name).isSome :=
  Std.TreeMap.contains_eq_isSome_getElem?

/-! ## Nodes -/

namespace Expr

/-- What a missing cell counts as where the node names it. -/
def missing : Expr → Value
  | reference _ => .number Value.nan
  | _ => .null

/-- The result of a node, given the values of its operands and of the cells that it names by itself. -/
def finish (registry : Registry) (operands cells : List Value) : Expr → Except EvalError Value
  | number n => .ok (.number n)
  | text s => .ok (.text s)
  | reference _ => .ok (cells.headD .null)
  | range first last => (expandRange first last).map fun _ => .collection cells
  | unary op _ => .ok (Value.applyUnary op (operands.headD .null))
  | binary op _ _ => .ok (Value.applyBinary op (operands.headD .null) (operands.tail.headD .null))
  | call name _ =>
    match registry.get? name with
    | some f => .ok (f operands)
    | none => .error (.invalidFunctionName name)

/-- The reason for which a node fails when all below it has been evaluated: a malformed corner or a
name that no function has. -/
def ownFault (registry : Registry) : Expr → Option EvalError
  | range first last => errorOf (expandRange first last)
  | call name _ => if registry.contains name then none else some (.invalidFunctionName name)
  | _ => none

theorem errorOf_finish (registry : Registry) (vs ws : List Value) (e : Expr) :
    errorOf (e.finish registry vs ws) = e.ownFault registry := by
  cases e with
  | range first last => exact errorOf_map _ _
  | call name as =>
    rw [finish, ownFault, contains_eq]
    cases registry.get? name <;> rfl
  | _ => rfl

theorem eq_collection_of_finish {registry : Registry} {vs ws : List Value} {first last : String}
    {v : Value} (h : (range first last).finish registry vs ws = .ok v) : v = .collection ws := by
  rw [finish] at h
  cases hids : expandRange first last with
  | error err => rw [hids] at h; cases h
  | ok ids => rw [hids] at h; cases h; rfl

theorem exists_function_of_finish {registry : Registry} {vs ws : List Value} {name : String}
    {as : List Expr} {v : Value} (h : (call name as).finish registry vs ws = .ok v) :
    ∃ f, registry.get? name = some f ∧ v = f vs := by
  rw [finish] at h
  cases hget : registry.get? name with
  | none => rw [hget] at h; cases h
  | some f => rw [hget] at h; cases h; exact ⟨f, rfl, rfl⟩

end Expr

/-- The value of a cell that may be missing. -/
def readAs (fetch : String → EvalM (Option Value)) (default : Value) (id : String) : EvalM Value := do
  return (← fetch id).getD default

section Evaluation
variable {registry : Registry} {fetch : String → EvalM (Option Value)}

theorem evalList_eq (as : List Expr) :
    Expr.evalList registry fetch as = as.mapM (Expr.eval registry fetch) := by
  induction as with
  | nil => rfl
  | cons a as ih => rw [Expr.evalList, ih, List.mapM_cons]

theorem eval_range_ok {first last : String} {ids : List String}
    (h : expandRange first last = .ok ids) : (Expr.range first last).eval registry fetch =
      (do return .collection (← ids.mapM (readAs fetch .null))) := by
  rw [Expr.eval, h]
  rfl

theorem eval_range_error {first last : String} {err : EvalError}
    (h : expandRange first last = .error err) :
    (Expr.range first last).eval registry fetch = throw err := by
  rw [Expr.eval, h]
  rfl

/-- The operands come first, then the cells that the node names by itself, and then the node. -/
theorem eval_eq (e : Expr) : e.eval registry fetch = (do
    let vs ← e.operands.mapM (Expr.eval registry fetch)
    let ws ← (e.ownIds coveredIds).mapM (readAs fetch e.missing)
    liftM (e.finish registry vs ws)) := by
  cases e with
  | number n => rfl
  | text s => rfl
  | reference id => simp [Expr.eval, Expr.operands, Expr.ownIds, Expr.finish, readAs, Expr.missing]; rfl
  | range first last =>
    cases hids : expandRange first last with
    | error err =>
      simp only [eval_range_error hids, Expr.operands, Expr.ownIds, coveredIds, hids, Expr.finish]
      rfl
    | ok ids =>
      simp only [eval_range_ok hids, Expr.operands, Expr.ownIds, coveredIds, hids, Expr.finish,
        List.mapM_nil, pure_bind]
      rfl
  | unary op a => simp [Expr.eval, Expr.operands, Expr.ownIds, Expr.finish]; rfl
  | binary op a b => simp [Expr.eval, Expr.operands, Expr.ownIds, Expr.finish]; rfl
  | call name as =>
    simp only [Expr.eval, Expr.operands, Expr.ownIds, Expr.finish, evalList_eq, List.mapM_nil, pure_bind]
    refine bind_congr fun vs => ?_
    cases registry.get? name <;> rfl

variable {Q : Expr → Post Value} {R : Value → String → Post Value}

/-- What is known of a node when the postconditions `Q` hold of its operands, and `R` of the cells that
it names by itself: an operand or a cell fails, or the node finishes. -/
inductive Expr.Step (registry : Registry) (Q : Expr → Post Value) (R : Value → String → Post Value)
    (e : Expr) : Post Value
  | operand {log err log'} : Chain Q e.operands log (.error err) log' →
      Step registry Q R e log (.error err) log'
  | cell {log vs mid err log'} : Chain Q e.operands log (.ok vs) mid →
      Chain (R e.missing) (e.ownIds coveredIds) mid (.error err) log' →
      Step registry Q R e log (.error err) log'
  | finish {log vs mid ws log'} : Chain Q e.operands log (.ok vs) mid →
      Chain (R e.missing) (e.ownIds coveredIds) mid (.ok ws) log' →
      Step registry Q R e log (e.finish registry vs ws) log'

theorem ensures_step {e : Expr} (hoperands : ∀ a ∈ e.operands, Ensures (a.eval registry fetch) (Q a))
    (hcells : ∀ id ∈ e.ownIds coveredIds, Ensures (readAs fetch e.missing id) (R e.missing id)) :
    Ensures (e.eval registry fetch) (e.Step registry Q R) := by
  have hfinish : ∀ vs ws, Ensures (liftM (e.finish registry vs ws) : EvalM Value) fun log r log' =>
      r = e.finish registry vs ws ∧ log' = log := fun vs ws => ensures_lift fun _ => ⟨rfl, rfl⟩
  rw [eval_eq]
  refine ((Ensures.mapM hoperands).bind fun vs => (Ensures.mapM hcells).bind (hfinish vs)).imp ?_
  rintro log r log' (⟨hvs, ⟨hws, rfl, rfl⟩ | herror⟩ | herror)
  · exact .finish hvs hws
  · exact .cell hvs herror
  · exact .operand herror

/-- What follows from each step at the nodes of a tree holds of the tree. -/
theorem ensures_eval {e : Expr}
    (hcells : ∀ n ∈ e.nodes, ∀ id ∈ n.ownIds coveredIds,
      Ensures (readAs fetch n.missing id) (R n.missing id))
    (hstep : ∀ n ∈ e.nodes, ∀ log r log', (n.eval registry fetch).run log = (r, log') →
      n.Step registry Q R log r log' → Q n log r log') :
    Ensures (e.eval registry fetch) (Q e) := by
  induction e using Expr.induction with
  | step e ih =>
    have hoperands : ∀ a ∈ e.operands, Ensures (a.eval registry fetch) (Q a) := by
      intro a ha
      exact ih a ha (fun n hn => hcells n (Expr.mem_nodes_of_operand ha hn))
        fun n hn => hstep n (Expr.mem_nodes_of_operand ha hn)
    have hself := Expr.mem_nodes_self e
    exact fun log r log' hrun => hstep e hself log r log' hrun
      (ensures_step hoperands (hcells e hself) log r log' hrun)

end Evaluation

/-! ## Cells -/

section Cells
variable {registry : Registry} {ctx : Context} {id : String} {default v : Value} {log : List Lookup}

theorem run_read_stored (h : ctx.answer log id = some v) :
    (readAs (ctx.fetch registry) default id).run log =
      (v.resolve registry).run (⟨ctx.key, id⟩ :: log) := by
  show (Value.resolveOption registry (ctx.answer log id) >>= _).run (⟨ctx.key, id⟩ :: log) = _
  rw [h]
  simp [Value.resolveOption]

theorem run_read_missing (h : ctx.answer log id = none) :
    (readAs (ctx.fetch registry) default id).run log = (.ok default, ⟨ctx.key, id⟩ :: log) := by
  show (Value.resolveOption registry (ctx.answer log id) >>= _).run (⟨ctx.key, id⟩ :: log) = _
  rw [h]
  rfl

/-- A cell is looked up, and if there is one, then its value is read. -/
theorem ensures_read {Q : Post Value}
    (hmissing : ∀ log, ctx.answer log id = none → Q log (.ok default) (⟨ctx.key, id⟩ :: log))
    (hstored : ∀ log v, ctx.answer log id = some v → ∀ r log',
      (v.resolve registry).run (⟨ctx.key, id⟩ :: log) = (r, log') → Q log r log') :
    Ensures (readAs (ctx.fetch registry) default id) Q := by
  intro log r log' hrun
  cases hanswer : ctx.answer log id with
  | none =>
    cases (run_read_missing hanswer).symm.trans hrun
    exact hmissing log hanswer
  | some v =>
    rw [run_read_stored hanswer] at hrun
    exact hstored log v hanswer r log' hrun

end Cells

/-! ## Stored values -/

namespace Value

/-- Facts about values are shown of a collection when they are known of its items, and of a formula when
they are known of all values that its context answers with. -/
@[elab_as_elim]
theorem induction {P : Value → Prop} (text : ∀ s, P (.text s)) (number : ∀ n, P (.number n))
    (boolean : ∀ b, P (.boolean b)) (null : P .null) (error : ∀ message, P (.error message))
    (collection : ∀ items, (∀ v ∈ items, P v) → P (.collection items))
    (formula : ∀ e ctx, (∀ log id v, ctx.answer log id = some v → P v) → P (.ofFormula e ctx))
    (v : Value) : P v :=
  @Value.rec P (fun vs => ∀ v ∈ vs, P v) (fun o => ∀ v, o = some v → P v) text number boolean null
    error collection (fun e key _ h => formula e ⟨key, _⟩ h) (by simp)
    (fun _ _ hv hvs => List.forall_mem_cons.2 ⟨hv, hvs⟩) nofun
    (fun _ hv _ h => Option.some.inj h ▸ hv) v

theorem resolveList_eq (registry : Registry) (vs : List Value) :
    resolveList registry vs = vs.mapM (resolve registry) := by
  induction vs with
  | nil => rfl
  | cons v vs ih => rw [resolveList, ih, List.mapM_cons]

theorem resolve_collection (registry : Registry) (items : List Value) :
    (collection items).resolve registry = (do return collection (← items.mapM (resolve registry))) := by
  rw [resolve, resolveList_eq]

end Value

/-! ## Look-ups are only added -/

section Grows
variable {registry : Registry}

theorem grows_eval {fetch : String → EvalM (Option Value)}
    (hread : ∀ default id, Ensures (readAs fetch default id) Grows) (e : Expr) :
    Ensures (e.eval registry fetch) Grows := by
  refine ensures_eval (Q := fun _ => Grows) (R := fun _ _ => Grows) (fun _ _ id _ => hread _ id)
    fun n _ log r log' _ hstep => ?_
  cases hstep with
  | operand h => exact h.grows id
  | cell h h' => exact (h.grows id).trans (h'.grows id)
  | finish h h' => exact (h.grows id).trans (h'.grows id)

theorem grows_read {ctx : Context}
    (h : ∀ log id v, ctx.answer log id = some v → Ensures (v.resolve registry) Grows)
    (default : Value) (id : String) : Ensures (readAs (ctx.fetch registry) default id) Grows :=
  ensures_read (fun _ _ => List.suffix_cons _ _) fun log v hv _ _ hrun =>
    (List.suffix_cons _ log).trans (h log id v hv _ _ _ hrun)

theorem grows_resolve (v : Value) : Ensures (v.resolve registry) Grows := by
  induction v using Value.induction with
  | text _ | number _ | boolean _ | null | error _ => exact ensures_pure fun _ => List.suffix_rfl
  | collection items ih =>
    rw [Value.resolve_collection]
    exact (Ensures.mapM ih).map fun h => h.grows id
  | formula e ctx ih =>
    rw [Value.resolve_ofFormula]
    exact grows_eval (grows_read ih) e

theorem grows_evaluate (e : Expr) (ctx : Context) : Ensures (e.evaluate registry ctx) Grows :=
  grows_resolve (.ofFormula e ctx)

end Grows

end CellFormula
