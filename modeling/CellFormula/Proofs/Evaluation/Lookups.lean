import CellFormula.Proofs.Evaluation.FormulaFree
import CellFormula.Proofs.Expr.Nodes
/-!
# The order of look-ups

Where cells hold no formulas, an evaluation looks up the leaves of its tree from left to right, each
as often as it occurs, whatever the answers are and however they change. If it fails, then it has
looked up the leaves in front of the node that fails and those below it.
-/

namespace CellFormula

/-- The log after these look-ups in the context with the key, one after another. -/
def logged (key : Nat) (ids : List String) (log : List Lookup) : List Lookup :=
  (ids.map (Lookup.mk key)).reverse ++ log

theorem logged_append (key : Nat) (ids others : List String) (log : List Lookup) :
    logged key (ids ++ others) log = logged key others (logged key ids log) := by
  simp [logged]

/-- The ids that evaluation looks up at these nodes. -/
def idsOf (ns : List Expr) : List String :=
  ns.flatMap (Expr.ownIds coveredIds)

theorem idsOf_append (ns ms : List Expr) : idsOf (ns ++ ms) = idsOf ns ++ idsOf ms :=
  List.flatMap_append

theorem idsOf_nodes (e : Expr) :
    idsOf e.nodes = idsOf (e.operands.flatMap Expr.nodes) ++ e.ownIds coveredIds := by
  rw [e.nodes_eq, Expr.innerNodes_eq, idsOf_append]
  simp [idsOf]

/-! ## Runs along the nodes of a tree -/

/-- The run succeeds after the look-ups of all these nodes, of which none fails, or it fails for the
same reason as the first node that does, after the look-ups up to this node. -/
inductive Follows {α : Type} (registry : Registry) (key : Nat) (ns : List Expr) : Post α
  | done {log a log'} : (∀ n ∈ ns, n.ownFault registry = none) →
      log' = logged key (idsOf ns) log → Follows registry key ns log (.ok a) log'
  | failed {log err log'} (before after : List Expr) (n : Expr) : ns = before ++ n.nodes ++ after →
      (∀ m ∈ before ++ n.innerNodes, m.ownFault registry = none) → n.ownFault registry = some err →
      log' = logged key (idsOf before ++ n.dependencies) log →
      Follows registry key ns log (.error err) log'

section Follows
variable {registry : Registry} {key : Nat} {α β : Type} {ns ms : List Expr} {err : EvalError}
  {log mid log' : List Lookup}

/-- What fails along some nodes does so whatever comes behind them. -/
theorem Follows.append (h : Follows registry key ns log (.error err : Except EvalError α) log')
    (ms : List Expr) : Follows registry key (ns ++ ms) log (.error err : Except EvalError β) log' := by
  cases h with
  | failed before after n hns hbefore hn hlog =>
    exact .failed before (after ++ ms) n (by simp [hns]) hbefore hn hlog

/-- A run goes on along further nodes. -/
theorem Follows.after {a : α} {r : Except EvalError β}
    (h : Follows registry key ns log (.ok a) mid) (h' : Follows registry key ms mid r log') :
    Follows registry key (ns ++ ms) log r log' := by
  cases h with
  | done hns hmid =>
    subst hmid
    cases h' with
    | done hms hlog =>
      refine .done (List.forall_mem_append.2 ⟨hns, hms⟩) ?_
      rw [hlog, idsOf_append, logged_append]
    | failed before after n hms hbefore hn hlog =>
      refine .failed (ns ++ before) after n (by simp [hms]) ?_ hn ?_
      · rw [List.append_assoc]
        exact List.forall_mem_append.2 ⟨hns, hbefore⟩
      · rw [hlog, idsOf_append, List.append_assoc, logged_append key (idsOf ns)]

theorem Follows.map {r : Except EvalError α} (h : Follows registry key ns log r log') (f : α → β) :
    Follows registry key ns log (r.map f) log' := by
  cases h with
  | done hns hlog => exact .done hns hlog
  | failed before after n hns hbefore hn hlog => exact .failed before after n hns hbefore hn hlog

theorem Chain.follows {as : List Expr} {r : Except EvalError (List α)}
    (h : Chain (fun a => Follows registry key a.nodes) as log r log') :
    Follows registry key (as.flatMap Expr.nodes) log r log' := by
  induction h with
  | nil => exact .done nofun rfl
  | cons hb _ ih => exact hb.after (ih.map (_ :: ·))
  | head ha => exact ha.append _
  | tail hb _ ih => exact hb.after ih

/-- A node finishes behind its operands and the look-ups of its own. -/
theorem follows_finish {e : Expr} {vs ws : List Value}
    (h : Follows registry key (e.operands.flatMap Expr.nodes) log (.ok vs) mid)
    (hlog : log' = logged key (e.ownIds coveredIds) mid) :
    Follows registry key e.nodes log (e.finish registry vs ws) log' := by
  have hfinish := Expr.errorOf_finish registry vs ws e
  cases h with
  | done hoperands hmid =>
    have hids : log' = logged key (idsOf e.nodes) log := by
      rw [hlog, hmid, idsOf_nodes, logged_append]
    rw [← Expr.innerNodes_eq] at hoperands
    cases hresult : e.finish registry vs ws with
    | ok v =>
      rw [hresult] at hfinish
      refine .done ?_ hids
      rw [e.nodes_eq]
      exact List.forall_mem_append.2 ⟨hoperands, List.forall_mem_singleton.2 hfinish.symm⟩
    | error err =>
      rw [hresult] at hfinish
      exact .failed [] [] e (by simp) (by simpa using hoperands) hfinish.symm hids

end Follows

/-! ## Look-ups without formulas -/

/-- There is a result behind the look-ups of these ids. -/
def LooksUp {α : Type} (key : Nat) (ids : List String) : Post α := fun log r log' =>
  errorOf r = none ∧ log' = logged key ids log

section LooksUp
variable {registry : Registry} {ctx : Context} {key : Nat} {log log' : List Lookup}

theorem Chain.looksUp {ids : List String} {r : Except EvalError (List Value)}
    (h : Chain (fun id => LooksUp key [id]) ids log r log') : LooksUp key ids log r log' := by
  induction h with
  | nil => exact ⟨rfl, rfl⟩
  | @cons id ids _ _ log mid log' hb _ ih =>
    refine ⟨rfl, ?_⟩
    rw [ih.2, hb.2, ← logged_append, List.singleton_append]
  | head ha => cases ha.1
  | tail _ _ ih => cases ih.1

theorem looksUp_read (hanswer : ∀ log id v, ctx.answer log id = some v → v.hasFormula = false)
    (default : Value) (id : String) :
    Ensures (readAs (ctx.fetch registry) default id) (LooksUp ctx.key [id]) := by
  refine ensures_read (fun _ _ => ⟨rfl, rfl⟩) fun log v hv r log' hrun => ?_
  rw [resolve_of_hasFormula v (hanswer log id v hv)] at hrun
  cases hrun
  exact ⟨rfl, rfl⟩

theorem follows_eval {fetch : String → EvalM (Option Value)}
    (hread : ∀ default id, Ensures (readAs fetch default id) (LooksUp key [id])) (e : Expr) :
    Ensures (e.eval registry fetch) (Follows registry key e.nodes) := by
  refine ensures_eval (Q := fun e => Follows registry key e.nodes)
    (R := fun _ id => LooksUp key [id]) (fun _ _ id _ => hread _ id) fun n _ log r log' _ hstep => ?_
  cases hstep with
  | operand h =>
    rw [n.nodes_eq, Expr.innerNodes_eq]
    exact h.follows.append [n]
  | cell _ h' => cases h'.looksUp.1
  | finish h h' => exact follows_finish h.follows h'.looksUp.2

end LooksUp

/-- Where cells hold no formulas, the look-ups of an evaluation with a value are the references and
the cells of the ranges, from left to right, each as often as it occurs in the tree. Those of an
evaluation that fails belong to the nodes in front of the first one that fails and to those below
it: there are none below a malformed range, and those in the arguments below an unknown function. -/
theorem evaluate_looks_up_leaves {registry : Registry} {ctx : Context}
    (hanswer : ∀ log id v, ctx.answer log id = some v → v.hasFormula = false) (e : Expr)
    (log : List Lookup) :
    (∀ v, ((e.evaluate registry ctx).run log).1 = .ok v →
      ((e.evaluate registry ctx).run log).2 = logged ctx.key e.dependencies log) ∧
    ∀ err, ((e.evaluate registry ctx).run log).1 = .error err →
      ∃ (before after : List Expr) (n : Expr), e.nodes = before ++ n.nodes ++ after ∧
        (∀ m ∈ before ++ n.innerNodes, m.ownFault registry = none) ∧
        n.ownFault registry = some err ∧
        ((e.evaluate registry ctx).run log).2 =
          logged ctx.key (idsOf before ++ n.dependencies) log := by
  have hfollows : Ensures (e.evaluate registry ctx) (Follows registry ctx.key e.nodes) :=
    follows_eval (looksUp_read hanswer) e
  obtain ⟨r, log', hrun⟩ : ∃ r log', (e.evaluate registry ctx).run log = (r, log') := ⟨_, _, rfl⟩
  rw [hrun]
  cases hfollows log r log' hrun with
  | done _ hlog => exact ⟨fun _ _ => hlog, nofun⟩
  | failed before after n hnodes hbefore hn hlog =>
    refine ⟨nofun, fun _ h => ?_⟩
    cases h
    exact ⟨before, after, n, hnodes, hbefore, hn, hlog⟩

/-- Every other look-up finds an error. -/
def flickering : Context :=
  ⟨5, fun log _ => if log.length % 2 = 0 then some (.error "#REF") else none⟩

theorem evaluate_flickering :
    (∀ log id v, flickering.answer log id = some v → v.hasFormula = false) ∧
    (∃ v, (((Expr.binary .add (.reference "A_1") (.call "SUM" [.range "A_1" "A_2"])).evaluate
      .builtin flickering).run []).1 = .ok v) ∧
    (((Expr.binary .add (.reference "A_1") (.call "SUM" [.range "A_1" "A_2"])).evaluate
      .builtin flickering).run []).2 = [⟨5, "A_2"⟩, ⟨5, "A_1"⟩, ⟨5, "A_1"⟩] := by
  have hanswer : ∀ log id v, flickering.answer log id = some v → v.hasFormula = false := by
    intro log id v h
    dsimp only [flickering] at h
    split at h
    · cases h
      rfl
    · cases h
  obtain ⟨v, hv⟩ : ∃ v, (((Expr.binary .add (.reference "A_1")
      (.call "SUM" [.range "A_1" "A_2"])).evaluate .builtin flickering).run []).1 = .ok v :=
    errorOf_eq_none.1 (by decide +kernel)
  refine ⟨hanswer, ⟨v, hv⟩, ?_⟩
  rw [(evaluate_looks_up_leaves hanswer _ []).1 v hv]
  decide +kernel

end CellFormula
