import CellFormula.Cells
import CellFormula.Proofs.Evaluation.Fault
import CellFormula.Proofs.Expr.Nodes
/-!
# Evaluations that agree

An evaluation looks its ids up one after another, and answers may depend on the look-ups made so
far. Look-ups in a silent context, such as one with fixed answers, are those that no answer depends
on. `agree_evaluate` compares two evaluations of a tree in silent contexts: they agree if the
contexts answer alike what the tree names and the registries have the same functions for what is
called.
-/

namespace CellFormula

variable {silent : Nat → Bool}

/-! ## Silent contexts -/

/-- The look-ups outside the silent contexts, which answers may depend on. -/
def heard (silent : Nat → Bool) (log : List Lookup) : List Lookup :=
  log.filter fun l => !silent l.context

theorem heard_cons_silent {key : Nat} (h : silent key = true) (id : String) (log : List Lookup) :
    heard silent (⟨key, id⟩ :: log) = heard silent log := by
  simp [heard, h]

theorem heard_cons_eq {log log' : List Lookup} (l : Lookup)
    (h : heard silent log = heard silent log') :
    heard silent (l :: log) = heard silent (l :: log') := by
  unfold heard at h ⊢
  rw [List.filter_cons, List.filter_cons, h]

namespace Value

mutual

/-- No context in the value answers differently after look-ups in silent contexts. -/
def Ignores (silent : Nat → Bool) : Value → Prop
  | formula _ _ answer =>
    (∀ log log' id, heard silent log = heard silent log' → answer log id = answer log' id) ∧
      ∀ log id, IgnoresOption silent (answer log id)
  | collection items => IgnoresList silent items
  | _ => True
termination_by structural v => v

/-- All of the values ignore look-ups in the silent contexts. -/
def IgnoresList (silent : Nat → Bool) : List Value → Prop
  | [] => True
  | v :: vs => Ignores silent v ∧ IgnoresList silent vs
termination_by structural vs => vs

/-- The answer of a context ignores them, if there is one. -/
def IgnoresOption (silent : Nat → Bool) : Option Value → Prop
  | none => True
  | some v => Ignores silent v
termination_by structural v => v

end

/-- The trees that are evaluated when the value is read: those of its formulas, and those reached
through the ids that they name in their contexts. -/
inductive Reaches : Value → Expr → Prop
  | formula (e : Expr) (key : Nat) (answer : List Lookup → String → Option Value) :
    Reaches (.formula e key answer) e
  | item {items : List Value} {v : Value} {t : Expr} :
    v ∈ items → Reaches v t → Reaches (.collection items) t
  | named {e t : Expr} {key : Nat} {answer : List Lookup → String → Option Value}
      {log : List Lookup} {id : String} {v : Value} :
    id ∈ e.dependencies → answer log id = some v → Reaches v t → Reaches (.formula e key answer) t

end Value

/-- A silent context with fixed answers, and no context in them takes notice of silent ones. -/
structure Context.Steady (silent : Nat → Bool) (ctx : Context) : Prop where
  silent_key : silent ctx.key = true
  answer_eq : ∀ log id, ctx.answer log id = ctx.answer [] id
  stored : ∀ id, Value.IgnoresOption silent (ctx.answer [] id)

namespace Value

theorem ignoresList_iff {vs : List Value} :
    IgnoresList silent vs ↔ ∀ v ∈ vs, v.Ignores silent := by
  induction vs with
  | nil => simp [IgnoresList]
  | cons v vs ih => rw [IgnoresList, ih, List.forall_mem_cons]

theorem ignoresOption_iff {o : Option Value} :
    IgnoresOption silent o ↔ ∀ v, o = some v → v.Ignores silent := by
  cases o <;> simp [IgnoresOption]

theorem Fixed.ignores (v : Value) : v.Fixed → v.Ignores silent := by
  induction v using Value.induction with
  | text _ | number _ | boolean _ | null | error _ => exact fun _ => trivial
  | collection items ih =>
    exact fun h => ignoresList_iff.2 fun v hv => ih v hv (fixedList_iff.1 h v hv)
  | formula e ctx ih =>
    intro h
    have hctx : ctx.Fixed := fixed_ofFormula.1 h
    refine ⟨fun log log' id _ => (hctx.answer_eq log id).trans (hctx.answer_eq log' id).symm, ?_⟩
    exact fun log id => ignoresOption_iff.2 fun v hv => ih log id v hv (hctx.of_answer hv)

end Value

/-- Where all answers are fixed, any choice of silent contexts will do. -/
theorem Context.Fixed.steady {ctx : Context} (h : ctx.Fixed) (hkey : silent ctx.key = true) :
    ctx.Steady silent :=
  ⟨hkey, h.answer_eq, fun _ => Value.ignoresOption_iff.2 fun v hv => Value.Fixed.ignores v (h.of_answer hv)⟩

/-- Both registries have the same functions under the names that are called in the tree. -/
def Registry.AgreeOn (registry registry' : Registry) (e : Expr) : Prop :=
  ∀ name as, .call name as ∈ e.nodes → registry.get? name = registry'.get? name

theorem Registry.AgreeOn.refl (registry : Registry) (e : Expr) : registry.AgreeOn registry e :=
  fun _ _ _ => rfl

/-! ## Agreeing computations -/

/-- After the same heard look-ups the other computation has this result too, and again leaves the same
heard look-ups. -/
def Agrees {α : Type} (silent : Nat → Bool) (y : EvalM α) : Post α := fun log r log' =>
  ∀ other, heard silent log = heard silent other →
    ∃ other', y.run other = (r, other') ∧ heard silent log' = heard silent other'

/-- After the same heard look-ups both have the same outcome and again the same heard look-ups. -/
def Agree {α : Type} (silent : Nat → Bool) (x y : EvalM α) : Prop :=
  Ensures x (Agrees silent y)

section Agree
variable {α β : Type} {x y : EvalM α} {log log' : List Lookup}

theorem agrees_lift (r : Except EvalError α) (log : List Lookup) :
    Agrees silent (liftM r : EvalM α) log r log := by
  intro other h
  cases r <;> exact ⟨other, rfl, h⟩

theorem Then.agrees {g : α → EvalM β} {r : Except EvalError β}
    (h : Then (Agrees silent y) (fun a => Agrees silent (g a)) log r log') :
    Agrees silent (y >>= g) log r log' := by
  intro other hother
  cases h with
  | ok hy hg =>
    obtain ⟨mid, hrun, hmid⟩ := hy other hother
    rw [run_bind_ok hrun]
    exact hg mid hmid
  | error hy =>
    obtain ⟨other', hrun, hheard⟩ := hy other hother
    exact ⟨other', run_bind_error hrun, hheard⟩

theorem Chain.agrees {ι : Type} {g : ι → EvalM β} {is : List ι} {r : Except EvalError (List β)}
    (h : Chain (fun i => Agrees silent (g i)) is log r log') :
    Agrees silent (is.mapM g) log r log' := by
  induction h with
  | nil => exact agrees_lift (.ok []) _
  | cons hb _ ih =>
    rw [List.mapM_cons]
    exact Then.agrees (.ok hb (Then.agrees (.ok ih (agrees_lift (.ok _) _))))
  | head ha =>
    rw [List.mapM_cons]
    exact Then.agrees (.error ha)
  | tail hb _ ih =>
    rw [List.mapM_cons]
    exact Then.agrees (.ok hb (Then.agrees (.error ih)))

theorem agree_pure (a : α) : Agree silent (pure a) (pure a) :=
  ensures_pure (agrees_lift (.ok a))

theorem Agree.bind {f g : α → EvalM β} (hx : Agree silent x y)
    (hf : ∀ a, Agree silent (f a) (g a)) : Agree silent (x >>= f) (y >>= g) :=
  (Ensures.bind hx hf).imp Then.agrees

theorem Agree.map (h : Agree silent x y) (f : α → β) :
    Agree silent (x >>= fun a => pure (f a)) (y >>= fun a => pure (f a)) :=
  h.bind fun a => agree_pure (f a)

theorem Agree.mapM {ι : Type} {f g : ι → EvalM β} {is : List ι}
    (h : ∀ i ∈ is, Agree silent (f i) (g i)) : Agree silent (is.mapM f) (is.mapM g) :=
  (Ensures.mapM h).imp Chain.agrees

theorem Agree.result_eq (h : Agree silent x y) (hlog : heard silent log = heard silent log') :
    (x.run log).1 = (y.run log').1 := by
  obtain ⟨r, mid, hrun⟩ : ∃ r mid, x.run log = (r, mid) := ⟨_, _, rfl⟩
  obtain ⟨_, hrun', -⟩ := h log r mid hrun log' hlog
  rw [hrun, hrun']

end Agree

section Evaluation
variable {registry registry' : Registry} {fetch fetch' : String → EvalM (Option Value)}

/-- Both contexts are silent or they are logged alike, and what they answer is read alike. -/
theorem agree_fetch {ctx ctx' : Context} {id : String}
    (hkey : ctx.key = ctx'.key ∨ silent ctx.key = true ∧ silent ctx'.key = true)
    (hanswer : ∀ log log', heard silent log = heard silent log' →
      ctx.answer log id = ctx'.answer log' id)
    (hread : ∀ log v, ctx.answer log id = some v →
      Agree silent (v.resolve registry) (v.resolve registry')) :
    Agree silent (ctx.fetch registry id) (ctx'.fetch registry' id) := by
  have hoption : ∀ log, Agree silent (Value.resolveOption registry (ctx.answer log id))
      (Value.resolveOption registry' (ctx.answer log id)) := by
    intro log
    cases hv : ctx.answer log id with
    | none => exact agree_pure none
    | some v => exact (hread log v hv).map some
  intro log r log' hrun other hother
  rw [Context.run_fetch] at hrun
  rw [Context.run_fetch, ← hanswer log other hother]
  refine hoption log _ r log' hrun _ ?_
  rcases hkey with hkey | ⟨hctx, hctx'⟩
  · rw [hkey]
    exact heard_cons_eq _ hother
  · rw [heard_cons_silent hctx, heard_cons_silent hctx', hother]

theorem Expr.finish_congr {e n : Expr} (h : registry.AgreeOn registry' e) (hn : n ∈ e.nodes)
    (vs ws : List Value) : n.finish registry vs ws = n.finish registry' vs ws := by
  cases n with
  | call name as => rw [finish, finish, h name as hn]
  | _ => rfl

theorem agree_eval (e : Expr) (hfetch : ∀ id ∈ e.dependencies, Agree silent (fetch id) (fetch' id))
    (hget : registry.AgreeOn registry' e) :
    Agree silent (e.eval registry fetch) (e.eval registry' fetch') := by
  refine ensures_eval (Q := fun n => Agrees silent (n.eval registry' fetch'))
    (R := fun default id => Agrees silent (readAs fetch' default id)) (fun n hn id hid => ?_)
    fun n hn log r log' _ hstep => ?_
  · exact (hfetch id (List.mem_flatMap.2 ⟨n, hn, hid⟩)).map (·.getD n.missing)
  · rw [eval_eq]
    cases hstep with
    | operand h => exact Then.agrees (.error h.agrees)
    | cell h h' => exact Then.agrees (.ok h.agrees (Then.agrees (.error h'.agrees)))
    | finish h h' =>
      rw [Expr.finish_congr hget hn]
      exact Then.agrees (.ok h.agrees (Then.agrees (.ok h'.agrees (agrees_lift _ _))))

/-- A stored value is read alike by registries that agree on the trees that it reaches. -/
theorem agree_resolve (v : Value) : v.Ignores silent →
    (∀ t, v.Reaches t → registry.AgreeOn registry' t) →
    Agree silent (v.resolve registry) (v.resolve registry') := by
  induction v using Value.induction with
  | text _ | number _ | boolean _ | null | error _ => exact fun _ _ => agree_pure _
  | collection items ih =>
    intro h hget
    rw [Value.resolve_collection, Value.resolve_collection]
    exact (Agree.mapM fun v hv => ih v hv (Value.ignoresList_iff.1 h v hv)
      fun t ht => hget t (.item hv ht)).map Value.collection
  | formula e ctx ih =>
    intro h hget
    rw [Value.resolve_ofFormula, Value.resolve_ofFormula]
    refine agree_eval e (fun id hid => ?_) (hget e (.formula e ctx.key ctx.answer))
    refine agree_fetch (.inl rfl) (fun log log' => h.1 log log' id) fun log v hv => ?_
    exact ih log id v hv (Value.ignoresOption_iff.1 (h.2 log id) v hv)
      fun t ht => hget t (.named hid hv ht)

/-- Steady contexts that answer an id alike are asked for it alike. -/
theorem agree_fetch_steady {ctx ctx' : Context} {id : String} (hctx : ctx.Steady silent)
    (hctx' : ctx'.Steady silent) (hanswer : ctx.answer [] id = ctx'.answer [] id)
    (hget : ∀ v, ctx.answer [] id = some v → ∀ t, v.Reaches t → registry.AgreeOn registry' t) :
    Agree silent (ctx.fetch registry id) (ctx'.fetch registry' id) := by
  refine agree_fetch (.inr ⟨hctx.silent_key, hctx'.silent_key⟩) (fun log log' _ => ?_)
    fun log v hv => ?_
  · rw [hctx.answer_eq log, hctx'.answer_eq log', hanswer]
  · rw [hctx.answer_eq log] at hv
    exact agree_resolve v (Value.ignoresOption_iff.1 (hctx.stored id) v hv) (hget v hv)

theorem agree_evaluate {ctx ctx' : Context} {e : Expr} (hctx : ctx.Steady silent)
    (hctx' : ctx'.Steady silent)
    (hanswer : ∀ id ∈ e.dependencies, ctx.answer [] id = ctx'.answer [] id)
    (hget : ∀ t, (Value.ofFormula e ctx).Reaches t → registry.AgreeOn registry' t) :
    Agree silent (e.evaluate registry ctx) (e.evaluate registry' ctx') :=
  agree_eval e (fun id hid => agree_fetch_steady hctx hctx' (hanswer id hid)
    fun _ hv t ht => hget t (.named hid hv ht)) (hget e (.formula e ctx.key ctx.answer))

end Evaluation

/-! ## Fixed contexts -/

theorem heard_all (log : List Lookup) : heard (fun _ => true) log = [] :=
  List.filter_eq_nil_iff.2 fun _ _ => Bool.false_ne_true

theorem agree_all_iff {α : Type} {x y : EvalM α} :
    Agree (fun _ => true) x y ↔ ∀ log log', (x.run log).1 = (y.run log').1 := by
  refine ⟨fun h log log' => h.result_eq (by rw [heard_all, heard_all]), ?_⟩
  intro h log r log' hrun other _
  refine ⟨(y.run other).2, Prod.ext ?_ rfl, by rw [heard_all, heard_all]⟩
  rw [← h log other, hrun]

/-- In a fixed context the result does not depend on what has been looked up before. -/
theorem Context.Fixed.agree {registry : Registry} {ctx : Context} (h : ctx.Fixed) (e : Expr) :
    Agree (fun _ => true) (e.evaluate registry ctx) (e.evaluate registry ctx) :=
  agree_evaluate (h.steady rfl) (h.steady rfl) (fun _ _ => rfl) fun t _ => .refl registry t

theorem Context.Fixed.outcome_eq {registry : Registry} {ctx : Context} {e : Expr}
    {log log' : List Lookup} {r : Except EvalError Value} (h : ctx.Fixed)
    (hrun : (e.evaluate registry ctx).run log = (r, log')) :
    (e.evaluate registry ctx).outcome.1 = r := by
  have hsame : ((e.evaluate registry ctx).run log).1 = ((e.evaluate registry ctx).run []).1 :=
    agree_all_iff.1 (h.agree e) log []
  rw [hrun] at hsame
  exact hsame.symm

/-! ## Contexts of cells -/

section Cells
variable {cells : Cells} {key : Nat} {id : String}

theorem Cells.answer_insert {v : Value} {log : List Lookup} {other : String} :
    ((cells.insert id v).context key).answer log other =
      if id = other then some v else (cells.context key).answer log other :=
  get?_insert ..

theorem Cells.answer_erase {log : List Lookup} {other : String} :
    ((cells.erase id).context key).answer log other =
      if id = other then none else (cells.context key).answer log other :=
  get?_erase ..

theorem Cells.fixed_empty : (empty.context key).Fixed := by
  refine ⟨fun _ _ => rfl, fun other => ?_⟩
  show Value.FixedOption (empty.get? other)
  rw [get?_empty]
  trivial

theorem Cells.fixed_insert {v : Value} (h : (cells.context key).Fixed) (hv : v.Fixed) :
    ((cells.insert id v).context key).Fixed := by
  refine ⟨fun _ _ => rfl, fun other => ?_⟩
  rw [answer_insert]
  split
  · exact hv
  · exact h.stored other

theorem Cells.steady_empty (hkey : silent key = true) : (empty.context key).Steady silent := by
  refine ⟨hkey, fun _ _ => rfl, fun other => ?_⟩
  show Value.IgnoresOption silent (empty.get? other)
  rw [get?_empty]
  trivial

theorem Cells.steady_insert {v : Value} (h : (cells.context key).Steady silent)
    (hv : v.Ignores silent) : ((cells.insert id v).context key).Steady silent := by
  refine ⟨h.silent_key, fun _ _ => rfl, fun other => ?_⟩
  rw [answer_insert]
  split
  · exact hv
  · exact h.stored other

theorem Cells.steady_erase (h : (cells.context key).Steady silent) :
    ((cells.erase id).context key).Steady silent := by
  refine ⟨h.silent_key, fun _ _ => rfl, fun other => ?_⟩
  rw [answer_erase]
  split
  · trivial
  · exact h.stored other

end Cells

end CellFormula
