import CellFormula.Proofs.Evaluation.Agreement
import CellFormula.Proofs.Value.Errors
/-!
# Where errors go and come from

An error value goes up to the root of a tree, because all above it are errors. The other way round,
each error in a result has an origin: a cell that has been looked up, or an operator that has
rejected an operand of the wrong kind. Both are seen at one node at a time.
-/

namespace CellFormula

/-! ## Errors go up -/

section GoUp
variable {ctx : Context} {e : Expr} {v w : Value} {vs ws : List Value}

/-- A node with something faulty among its operands is an error. -/
theorem isError_finish (hlen : vs.length = e.operands.length) (hw : w ∈ vs) (hfaulty : w.Faulty)
    (h : e.finish .builtin vs ws = .ok v) : v.isError = true := by
  cases e with
  | number | text | reference | range =>
    cases List.length_eq_zero_iff.1 hlen
    cases hw
  | unary op a =>
    obtain ⟨x, rfl⟩ := List.length_eq_one_iff.1 hlen
    cases List.mem_singleton.1 hw
    cases h
    exact Value.isError_applyUnary op hfaulty
  | binary op a b =>
    obtain ⟨x, y, rfl⟩ : ∃ x y, vs = [x, y] := by
      match vs, hlen with
      | [x, y], _ => exact ⟨x, y, rfl⟩
    cases h
    refine Value.isError_applyBinary op ?_
    rcases List.mem_cons.1 hw with rfl | hw
    · exact .inl hfaulty
    · cases List.mem_singleton.1 hw
      exact .inr hfaulty
  | call name as =>
    obtain ⟨f, hget, rfl⟩ := Expr.exists_function_of_finish h
    exact (Registry.aggregated_builtin hget vs).isError hw hfaulty

/-- The value of a node is that of its outcome, and an error if that of some node below is faulty. -/
def GoesUp (ctx : Context) (e : Expr) : Post Value := fun _ r _ =>
  ∀ v, r = .ok v → (e.evaluate .builtin ctx).outcome.1 = .ok v ∧
    ∀ a ∈ e.innerNodes, ∀ u, (a.evaluate .builtin ctx).outcome.1 = .ok u → u.Faulty → v.isError = true

theorem GoesUp.faulty {a : Expr} {u : Value} {log log' : List Lookup}
    (h : GoesUp ctx e log (.ok v) log') (ha : a ∈ e.nodes)
    (hu : (a.evaluate .builtin ctx).outcome.1 = .ok u) (hfaulty : u.Faulty) : v.Faulty := by
  obtain ⟨hv, hinner⟩ := h v rfl
  rcases Expr.mem_nodes_iff.1 ha with ha | rfl
  · exact Value.faulty_of_isError (hinner a ha u hu hfaulty)
  · cases hu.symm.trans hv
    exact hfaulty

theorem goesUp_evaluate (hctx : ctx.Fixed) (e : Expr) :
    Ensures (e.evaluate .builtin ctx) (GoesUp ctx e) := by
  refine ensures_eval (Q := GoesUp ctx) (R := fun _ _ _ _ _ => True)
    (fun _ _ _ _ _ _ _ _ => trivial) fun n _ log r log' hrun hstep v hv => ?_
  refine ⟨(hctx.outcome_eq hrun).trans hv, fun a ha u hu hfaulty => ?_⟩
  cases hstep with
  | operand | cell => cases hv
  | finish h =>
    rw [Expr.innerNodes_eq] at ha
    obtain ⟨b, hb, ha⟩ := List.mem_flatMap.1 ha
    obtain ⟨w, hw, _, _, hgoesUp⟩ := h.exists_result hb
    exact isError_finish h.length_eq hw (hgoesUp.faulty ha hu hfaulty) hv

end GoUp

/-! ## Errors have an origin -/

/-- With these look-ups, reading the value evaluates the tree in the context: it is the tree of a
formula in the value, or of one in a cell that has been looked up for such a tree. -/
inductive Value.ReadsIn (lookups : List Lookup) : Value → Expr → Context → Prop
  | formula {e key answer} : ReadsIn lookups (.formula e key answer) e ⟨key, answer⟩
  | item {items v t ctx} : v ∈ items → ReadsIn lookups v t ctx →
      ReadsIn lookups (.collection items) t ctx
  | named {e t : Expr} {key answer id v ctx} : id ∈ e.dependencies → ⟨key, id⟩ ∈ lookups →
      answer [] id = some v → ReadsIn lookups v t ctx → ReadsIn lookups (.formula e key answer) t ctx

/-- Where an error with the message comes from when the tree is evaluated in the context. -/
inductive Origin (registry : Registry) (lookups : List Lookup) (ctx : Context) (t : Expr)
    (message : String) : Prop
  /-- It stands in a cell that has been looked up. -/
  | cell {id v} : id ∈ t.dependencies → ⟨ctx.key, id⟩ ∈ lookups → ctx.answer [] id = some v →
      v.Holds message → Origin registry lookups ctx t message
  /-- A unary operator has rejected its operand, which is neither a number nor an error. -/
  | unary {op a v} : .unary op a ∈ t.nodes → (a.evaluate registry ctx).outcome.1 = .ok v →
      v.isError = false → (∀ n, v ≠ .number n) → Value.applyUnary op v = .error message →
      Value.IsTypeError message → Origin registry lookups ctx t message
  /-- A binary operator has rejected a collection among its operands, and none is an error. -/
  | binary {op a b v w} : .binary op a b ∈ t.nodes → (a.evaluate registry ctx).outcome.1 = .ok v →
      (b.evaluate registry ctx).outcome.1 = .ok w → v.isError = false → w.isError = false →
      (v.isCollection = true ∨ w.isCollection = true) →
      Value.applyBinary op v w = .error message → Value.IsTypeError message →
      Origin registry lookups ctx t message

/-- The error has an origin in one of the trees that are evaluated when the value is read. -/
def Value.Traces (registry : Registry) (lookups : List Lookup) (v : Value) (message : String) : Prop :=
  ∃ t ctx, v.ReadsIn lookups t ctx ∧ Origin registry lookups ctx t message

section Traces
variable {ctx : Context} {e : Expr} {v : Value} {lookups : List Lookup} {m : String}

theorem Value.Traces.item {registry : Registry} {items : List Value} (hv : v ∈ items)
    (h : v.Traces registry lookups m) : (Value.collection items).Traces registry lookups m := by
  obtain ⟨t, ctx, hread, horigin⟩ := h
  exact ⟨t, ctx, .item hv hread, horigin⟩

/-- The property holds of each error in the result, with all look-ups that go on from those of the run. -/
def Explains (P : List Lookup → String → Prop) : Post Value := fun log r log' => log <:+ log' ∧
  ∀ w, r = .ok w → ∀ lookups, log' ⊆ lookups → ∀ m, w.Holds m → P lookups m

theorem Explains.imp {P P' : List Lookup → String → Prop} {log log' : List Lookup}
    {r : Except EvalError Value} (h : Explains P log r log')
    (hP : ∀ {lookups m}, P lookups m → P' lookups m) : Explains P' log r log' :=
  ⟨h.1, fun w hw lookups hlookups m hm => hP (h.2 w hw lookups hlookups m hm)⟩

theorem Chain.explains {α : Type} {as : List α} {Q : α → Post Value} {us : List Value} {u : Value}
    {log log' : List Lookup} {P : List Lookup → String → Prop}
    (hQ : ∀ {a log r log'}, Q a log r log' → Explains P log r log')
    (h : Chain Q as log (.ok us) log') (hlookups : log' ⊆ lookups) (hu : u ∈ us) (hm : u.Holds m) :
    P lookups m := by
  obtain ⟨_, _, _, mid, _, _, hitem, hrest⟩ := h.exists_item hu
  -- The look-ups of this step are still there behind the others.
  have hgrows : mid <:+ log' := hrest.grows fun h => (hQ h).1
  exact (hQ hitem).2 u rfl lookups (List.Subset.trans hgrows.subset hlookups) m hm

/-- An error that is read where the value is stored stands in it or has an origin behind it. -/
def Value.Brings (v : Value) (lookups : List Lookup) (message : String) : Prop :=
  v.Holds message ∨ v.Traces .builtin lookups message

theorem Value.Brings.item {items : List Value} (hv : v ∈ items) (h : v.Brings lookups m) :
    (Value.collection items).Brings lookups m :=
  h.imp (.item hv) (.item hv)

/-- What is known of a node in `e`: its errors have origins, and its value is that of its outcome. -/
def TracedAt (ctx : Context) (e n : Expr) : Post Value := fun log r log' =>
  Explains ((Value.ofFormula e ctx).Traces .builtin) log r log' ∧ (n.evaluate .builtin ctx).outcome.1 = r

/-- An error at a node comes from an operand or from a cell, or an operator makes it here. -/
theorem traces_finish {n : Expr} {vs ws : List Value} {log mid log' : List Lookup} (hn : n ∈ e.nodes)
    (h : Chain (TracedAt ctx e) n.operands log (.ok vs) mid)
    (h' : Chain (fun _ => Explains ((Value.ofFormula e ctx).Traces .builtin)) (n.ownIds coveredIds) mid
      (.ok ws) log')
    (hv : n.finish .builtin vs ws = .ok v) (hlookups : log' ⊆ lookups) (hm : v.Holds m) :
    (Value.ofFormula e ctx).Traces .builtin lookups m := by
  have hmid : mid ⊆ lookups := List.Subset.trans (h'.grows And.left).subset hlookups
  have hoperand := fun {u} => h.explains (u := u) (m := m) And.left hmid
  have hcell := fun {u} => h'.explains (u := u) (m := m) id hlookups
  cases n with
  | number | text => cases hv; cases hm
  | reference id =>
    obtain ⟨w, rfl⟩ := List.length_eq_one_iff.1 h'.length_eq
    cases hv
    exact hcell List.mem_cons_self hm
  | range first last =>
    cases Expr.eq_collection_of_finish hv
    cases hm with
    | item hw hm => exact hcell hw hm
  | unary op a =>
    cases h with
    | @cons _ _ x _ _ _ _ hx hnil =>
      cases hnil
      cases hv
      -- The operand has the error, or this node has made it.
      rcases Value.holds_applyUnary hm with hm | ⟨herror, hnumber, hresult, htype⟩
      · exact hoperand List.mem_cons_self hm
      · exact ⟨e, ctx, .formula, .unary hn hx.2 herror hnumber hresult htype⟩
  | binary op a b =>
    cases h with
    | @cons _ _ x _ _ _ _ hx hrest =>
      cases hrest with
      | @cons _ _ y _ _ _ _ hy hnil =>
        cases hnil
        cases hv
        rcases Value.holds_applyBinary hm with
          hm | hm | ⟨herror, herror', hcollection, hresult, htype⟩
        · exact hoperand List.mem_cons_self hm
        · exact hoperand (List.mem_cons_of_mem _ List.mem_cons_self) hm
        · exact ⟨e, ctx, .formula,
            .binary hn hx.2 hy.2 herror herror' hcollection hresult htype⟩
  | call name as =>
    obtain ⟨f, hget, rfl⟩ := Expr.exists_function_of_finish hv
    obtain ⟨u, hu, hm⟩ := (Registry.aggregated_builtin hget vs).exists_holds hm
    exact hoperand hu hm

/-- A cell has the error as it is stored, or a formula in it has brought it along. -/
theorem traced_read {id : String} {default : Value} (hctx : ctx.Fixed) (hid : id ∈ e.dependencies)
    (hdefault : ∀ m, ¬default.Holds m)
    (hstored : ∀ log id v, ctx.answer log id = some v →
      Ensures (v.resolve .builtin) (Explains v.Brings)) :
    Ensures (readAs (ctx.fetch .builtin) default id)
      (Explains ((Value.ofFormula e ctx).Traces .builtin)) := by
  refine ensures_read (fun log _ => ⟨List.suffix_cons _ _, fun w hw lookups _ m hm => ?_⟩)
    fun log v hanswer r log' hrun => ?_
  · cases hw
    exact absurd hm (hdefault m)
  have hgrows : ⟨ctx.key, id⟩ :: log <:+ log' := grows_resolve v _ r log' hrun
  refine ⟨(List.suffix_cons _ log).trans hgrows, fun w hw lookups hlookups m hm => ?_⟩
  have hlookup : ⟨ctx.key, id⟩ ∈ lookups := hlookups (hgrows.subset List.mem_cons_self)
  have hexplains := hstored log id v hanswer _ r log' hrun
  rw [hctx.answer_eq] at hanswer
  rcases hexplains.2 w hw lookups hlookups m hm with hm | ⟨t, ctx', hread, horigin⟩
  · exact ⟨e, ctx, .formula, .cell hid hlookup hanswer hm⟩
  · exact ⟨t, ctx', .named hid hlookup hanswer hread, horigin⟩

theorem traced_evaluate (hctx : ctx.Fixed)
    (hstored : ∀ log id v, ctx.answer log id = some v →
      Ensures (v.resolve .builtin) (Explains v.Brings))
    (e : Expr) : Ensures (e.evaluate .builtin ctx) (TracedAt ctx e e) := by
  refine ensures_eval (Q := TracedAt ctx e)
    (R := fun _ _ => Explains ((Value.ofFormula e ctx).Traces .builtin)) (fun n hn id hid => ?_)
    fun n hn log r log' hrun hstep => ?_
  · refine traced_read hctx (List.mem_flatMap.2 ⟨n, hn, hid⟩) (fun m hm => ?_) hstored
    cases n <;> cases hm
  · refine ⟨⟨grows_evaluate n ctx log r log' hrun, ?_⟩, hctx.outcome_eq hrun⟩
    cases hstep with
    | operand | cell => nofun
    | finish h h' => exact fun v hv lookups hlookups m hm => traces_finish hn h h' hv hlookups hm

theorem explains_resolve (v : Value) : v.Fixed → Ensures (v.resolve .builtin) (Explains v.Brings) := by
  induction v using Value.induction with
  | text _ | number _ | boolean _ | null | error _ =>
    intro _
    refine ensures_pure fun log => ⟨List.suffix_rfl, fun w hw _ _ m hm => ?_⟩
    cases hw
    exact .inl hm
  | collection items ih =>
    intro h
    have hitems : ∀ v ∈ items,
        Ensures (v.resolve .builtin) (Explains (Value.collection items).Brings) := fun v hv =>
      (ih v hv (Value.fixedList_iff.1 h v hv)).imp fun hv' => hv'.imp (.item hv)
    rw [Value.resolve_collection]
    refine (Ensures.mapM hitems).map fun {_ r _} hchain => ⟨hchain.grows And.left, ?_⟩
    intro w hw lookups hlookups m hm
    cases r with
    | error err => cases hw
    | ok ws =>
      cases hw
      cases hm with
      | item hw hm => exact hchain.explains id hlookups hw hm
  | formula e ctx ih =>
    intro h
    have hctx : ctx.Fixed := Value.fixed_ofFormula.1 h
    have hstored := fun log id v hv => ih log id v hv (hctx.of_answer hv)
    rw [Value.resolve_ofFormula]
    exact (traced_evaluate hctx hstored e).imp fun htraced => htraced.1.imp .inr

end Traces

/-- In a fixed context, errors are neither lost nor invented. Where the value of an inner node is an
error, or a collection with one in it at any depth, the result is an error. And each error in the
result stands in a cell that has been looked up, or it is the type error of a unary operator on
something that is neither a number nor an error, or of a binary operator on a collection and no
error, in the tree or in that of a formula that has been read. -/
theorem errors_go_up_from_origins {ctx : Context} (hctx : ctx.Fixed) {e : Expr} {v : Value}
    {lookups : List Lookup} (h : (e.evaluate .builtin ctx).outcome = (.ok v, lookups)) :
    (∀ a ∈ e.innerNodes, ∀ u, (a.evaluate .builtin ctx).outcome.1 = .ok u → u.Faulty →
      v.isError = true) ∧
    ∀ m, v.Holds m → (Value.ofFormula e ctx).Traces .builtin lookups m := by
  obtain ⟨r, log, hrun⟩ : ∃ r log, (e.evaluate .builtin ctx).run [] = (r, log) := ⟨_, _, rfl⟩
  rw [EvalM.outcome, hrun] at h
  cases h
  refine ⟨(goesUp_evaluate hctx e [] _ log hrun v rfl).2, ?_⟩
  have hstored := fun log id v (hv : ctx.answer log id = some v) =>
    explains_resolve v (hctx.of_answer hv)
  have htraced := traced_evaluate hctx hstored e [] _ log hrun
  exact htraced.1.2 v rfl log.reverse fun _ => List.mem_reverse.2

/-- A cell has the formula `-"x"`. -/
def negatedText : Context :=
  ⟨0, fun _ id => if id = "A_1" then
    some (.formula (.unary .negate (.text "x")) 1 fun _ _ => none) else none⟩

theorem evaluate_negatedText : negatedText.Fixed ∧
    ((Expr.binary .add (.reference "A_1") (.number 1)).evaluate .builtin negatedText).outcome =
      (.ok (.error "TypeError: unary '-' expects a number, got string"), [⟨0, "A_1"⟩]) ∧
    (Value.ofFormula (.binary .add (.reference "A_1") (.number 1)) negatedText).Traces .builtin
      [⟨0, "A_1"⟩] "TypeError: unary '-' expects a number, got string" := by
  have hfixed : negatedText.Fixed := by
    refine ⟨fun _ _ => rfl, fun id => ?_⟩
    dsimp only [negatedText]
    split
    · exact ⟨fun _ _ => rfl, fun _ => trivial⟩
    · trivial
  have houtcome : ((Expr.binary .add (.reference "A_1") (.number 1)).evaluate .builtin
      negatedText).outcome =
        (.ok (.error "TypeError: unary '-' expects a number, got string"), [⟨0, "A_1"⟩]) := by rfl
  exact ⟨hfixed, houtcome, (errors_go_up_from_origins hfixed houtcome).2 _ .error⟩

end CellFormula
