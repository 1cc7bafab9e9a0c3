import CellFormula.Proofs.Evaluation.Agreement
/-!
# Formulas in cells

A cell that holds a formula means the tree of the formula: a tree that refers to the cell evaluates
as the tree in which the formula stands in place of these references. Ranges do not refer to their
cells by references, so none of them may cover the cell.
-/

namespace CellFormula

namespace Expr

mutual

/-- The tree with `g` in place of the references to `id`. -/
def substitute : Expr → String → Expr → Expr
  | number n, _, _ => number n
  | text s, _, _ => text s
  | reference other, id, g => if other = id then g else reference other
  | range first last, _, _ => range first last
  | unary op a, id, g => unary op (substitute a id g)
  | binary op a b, id, g => binary op (substitute a id g) (substitute b id g)
  | call name as, id, g => call name (substituteList as id g)

/-- The arguments with `g` in place of the references to `id`. -/
def substituteList : List Expr → String → Expr → List Expr
  | [], _, _ => []
  | a :: as, id, g => substitute a id g :: substituteList as id g

end

/-- No range of the tree has this cell. -/
def Uncovered (id : String) (e : Expr) : Prop :=
  ∀ first last, .range first last ∈ e.nodes → id ∉ coveredIds first last

theorem Uncovered.mono {id : String} {a e : Expr} (h : e.Uncovered id)
    (hnodes : ∀ t ∈ a.nodes, t ∈ e.nodes) : a.Uncovered id :=
  fun first last hrange => h first last (hnodes _ hrange)

end Expr

/-! ## Reading one id in another way -/

/-- The value of `g` is fetched for `id`, and for other ids what is fetched otherwise. -/
def fetchTree (registry : Registry) (fetch : String → EvalM (Option Value)) (id : String)
    (g : Expr) (other : String) : EvalM (Option Value) :=
  if other = id then do return some (← g.eval registry fetch) else fetch other

section Substitute
variable {registry : Registry} {fetch : String → EvalM (Option Value)} {id : String} {g : Expr}

theorem fetchTree_of_ne {other : String} (h : other ≠ id) :
    fetchTree registry fetch id g other = fetch other :=
  if_neg h

theorem eval_range_fetchTree {first last : String} (h : id ∉ coveredIds first last) :
    (Expr.range first last).eval registry (fetchTree registry fetch id g) =
      (Expr.range first last).eval registry fetch := by
  cases hids : expandRange first last with
  | error x => rw [eval_range_error hids, eval_range_error hids]
  | ok ids =>
    rw [eval_range_ok hids, eval_range_ok hids]
    refine congrArg (· >>= fun vs => pure (Value.collection vs)) (mapM_congr fun other hother => ?_)
    rw [readAs, readAs, fetchTree_of_ne]
    rintro rfl
    exact h (by rwa [coveredIds, hids])

theorem substituteList_eq (as : List Expr) :
    Expr.substituteList as id g = as.map fun a => a.substitute id g := by
  induction as with
  | nil => rfl
  | cons a as ih => rw [Expr.substituteList, ih, List.map_cons]

/-- The tree with `g` in it is evaluated like the tree itself with the value of `g` fetched for the id. -/
theorem eval_substitute (e : Expr) : e.Uncovered id →
    (e.substitute id g).eval registry fetch = e.eval registry (fetchTree registry fetch id g) := by
  induction e using Expr.induction with
  | step e ih =>
    intro h
    have hoperand : ∀ a ∈ e.operands, (a.substitute id g).eval registry fetch =
        a.eval registry (fetchTree registry fetch id g) :=
      fun a ha => ih a ha (h.mono fun _ => Expr.mem_nodes_of_operand ha)
    cases e with
    | number n => rfl
    | text s => rfl
    | reference other =>
      rw [Expr.substitute, Expr.eval]
      by_cases hid : other = id
      · simp [fetchTree, hid]
      · rw [fetchTree_of_ne hid, if_neg hid, Expr.eval]
    | range first last =>
      rw [Expr.substitute, eval_range_fetchTree (h first last (Expr.mem_nodes_self _))]
    | unary op a => rw [Expr.substitute, Expr.eval, Expr.eval, hoperand a List.mem_cons_self]
    | binary op a b =>
      rw [Expr.substitute, Expr.eval, Expr.eval, hoperand a List.mem_cons_self,
        hoperand b (List.mem_cons_of_mem _ List.mem_cons_self)]
    | call name as =>
      have harguments : (as.map fun a => a.substitute id g).mapM (Expr.eval registry fetch) =
          as.mapM (Expr.eval registry (fetchTree registry fetch id g)) := by
        rw [List.mapM_map]
        exact mapM_congr hoperand
      rw [Expr.substitute, Expr.eval, Expr.eval, evalList_eq, evalList_eq, substituteList_eq, harguments]

end Substitute

/-! ## A formula in a cell -/

section Inlining
variable {silent : Nat → Bool} {registry : Registry} {cells : Cells} {key key' : Nat} {e g : Expr}
  {id : String}

/-- The formula is read from its cell in the context that it is bound to, after a look-up that is
silent. -/
theorem agree_fetch_formula (hcells : (cells.context key).Steady silent)
    (hkey' : silent key' = true) :
    Agree silent
      (((cells.insert id (.ofFormula g (cells.context key))).context key').fetch registry id)
      (do return some (← g.eval registry ((cells.context key).fetch registry))) := by
  have hg : Agree silent (g.evaluate registry (cells.context key))
      (g.evaluate registry (cells.context key)) :=
    agree_evaluate hcells hcells (fun _ _ => rfl) fun t _ => .refl registry t
  intro log r log' hrun other hother
  rw [Context.run_fetch, Cells.answer_insert, if_pos rfl] at hrun
  exact hg.map some _ r log' hrun other ((heard_cons_silent hkey' id log).trans hother)

theorem agree_inlined (hcells : (cells.context key).Steady silent) (hkey' : silent key' = true)
    (hrange : e.Uncovered id) :
    Agree silent
      (e.evaluate registry ((cells.insert id (.ofFormula g (cells.context key))).context key'))
      ((e.substitute id g).evaluate registry (cells.context key)) := by
  -- Both sides are now one tree, read with two different ways of fetching an id.
  rw [Expr.evaluate, Expr.evaluate, eval_substitute e hrange]
  refine agree_eval e (fun other _ => ?_) (.refl registry e)
  by_cases hother : other = id
  · subst hother
    rw [fetchTree, if_pos rfl]
    exact agree_fetch_formula hcells hkey'
  · have hanswer : ∀ log, ((cells.insert id (.ofFormula g (cells.context key))).context key').answer
        log other = (cells.context key).answer log other := by
      intro log
      rw [Cells.answer_insert, if_neg (Ne.symm hother)]
      rfl
    rw [fetchTree_of_ne hother]
    refine agree_fetch (.inr ⟨hkey', hcells.silent_key⟩) (fun log _ _ => hanswer log)
      fun log v hv => agree_resolve v ?_ fun t _ => .refl registry t
    rw [hanswer log] at hv
    exact Value.ignoresOption_iff.1 (hcells.stored other) v hv

end Inlining

/-- A cell that holds a formula over the other cells means the tree of the formula, wherever it is
referred to and whatever comes out, if no range covers the cell. The formula may refer to the cell
itself, and then reads what was there before. -/
theorem evaluate_formula_cell {silent : Nat → Bool} {registry : Registry} {cells : Cells}
    {key key' : Nat} {e g : Expr} {id : String} {log log' : List Lookup}
    (hcells : (cells.context key).Steady silent) (hkey' : silent key' = true)
    (hrange : e.Uncovered id) (hlog : heard silent log = heard silent log') :
    ((e.evaluate registry
        ((cells.insert id (.ofFormula g (cells.context key))).context key')).run log).1 =
      (((e.substitute id g).evaluate registry (cells.context key)).run log').1 :=
  (agree_inlined hcells hkey' hrange).result_eq hlog

theorem evaluate_formula_over_old_text :
    (((Cells.empty.insert "A_1" (.text "old")).context 0).Steady fun _ => true) ∧
    (Expr.binary .add (.reference "A_1") (.call "SUM" [.range "B_1" "B_2"])).Uncovered "A_1" ∧
    (((Expr.binary .add (.reference "A_1") (.call "SUM" [.range "B_1" "B_2"])).evaluate .builtin
        (((Cells.empty.insert "A_1" (.text "old")).insert "A_1"
          (.ofFormula (.binary .add (.reference "A_1") (.text "!"))
            ((Cells.empty.insert "A_1" (.text "old")).context 0))).context 1)).run []).1 =
      (((Expr.binary .add (.binary .add (.reference "A_1") (.text "!"))
        (.call "SUM" [.range "B_1" "B_2"])).evaluate .builtin
          ((Cells.empty.insert "A_1" (.text "old")).context 0)).run []).1 := by
  have hcells : ((Cells.empty.insert "A_1" (.text "old")).context 0).Steady fun _ => true :=
    Cells.steady_insert (v := .text "old") (Cells.steady_empty rfl) trivial
  have hrange :
      (Expr.binary .add (.reference "A_1") (.call "SUM" [.range "B_1" "B_2"])).Uncovered "A_1" := by
    intro first last h
    obtain ⟨rfl, rfl⟩ : first = "B_1" ∧ last = "B_2" := by
      simpa [Expr.nodes, Expr.nodesList] using h
    decide +kernel
  exact ⟨hcells, hrange, evaluate_formula_cell hcells rfl hrange rfl⟩

end CellFormula
