import CellFormula.Proofs.Evaluation.Agreement
import CellFormula.Proofs.Value.Aggregate
import Mathlib.Data.List.Forall2
/-!
# Ranges among arguments

A range evaluates to the collection of its cells, and the built-in functions flatten their arguments. So
where answers are fixed, a range among the arguments of such a function means its cells, written out one
after another. A missing cell is null in a range and NaN as a reference, so what stands for it is another
expression with the value null.
-/

namespace CellFormula

/-! ## Results -/

/-- Whatever has been looked up before, the result of the computation is this. -/
def Returns {α : Type} (x : EvalM α) (a : α) : Prop :=
  Ensures x fun _ r _ => r = .ok a

theorem eval_call {registry : Registry} {fetch : String → EvalM (Option Value)} {name : String}
    {f : Implementation} (h : registry.get? name = some f) (as : List Expr) :
    (Expr.call name as).eval registry fetch =
      (do return f (← as.mapM (Expr.eval registry fetch))) := by
  rw [Expr.eval, h, evalList_eq]

/-! ## Cells -/

/-- The expression has the value that the cell has in a range. -/
inductive StandsFor (registry : Registry) (ctx : Context) (id : String) : Expr → Prop
  | present {v : Value} : ctx.answer [] id = some v → StandsFor registry ctx id (.reference id)
  | missing {e : Expr} : ctx.answer [] id = none → Returns (e.evaluate registry ctx) .null →
      StandsFor registry ctx id e

section Cells
variable {registry : Registry} {ctx : Context} {id : String} {e : Expr} {ids : List String}
  {cells : List Expr} {v default : Value} {log : List Lookup}

theorem StandsFor.agree (hctx : ctx.Fixed) (h : StandsFor registry ctx id e) :
    Agree (fun _ => true) (readAs (ctx.fetch registry) .null id) (e.evaluate registry ctx) := by
  refine agree_all_iff.2 fun log log' => ?_
  cases h with
  | @present v hv =>
    have hself : Agree (fun _ => true) (v.resolve registry) (v.resolve registry) :=
      agree_resolve v (Value.Fixed.ignores v (hctx.of_answer hv)) fun t _ => .refl registry t
    show _ = ((readAs (ctx.fetch registry) _ id).run log').1
    rw [run_read_stored ((hctx.answer_eq log id).trans hv),
      run_read_stored ((hctx.answer_eq log' id).trans hv)]
    exact agree_all_iff.1 hself _ _
  | missing hv he =>
    rw [run_read_missing ((hctx.answer_eq log id).trans hv)]
    exact (he log' _ _ rfl).symm

theorem standsFor_null {other : String} (hctx : ctx.Fixed) (hid : ctx.answer [] id = none)
    (hother : ctx.answer [] other = some .null) : StandsFor registry ctx id (.reference other) := by
  refine .missing hid (.of_run fun log => ?_)
  show ((readAs (ctx.fetch registry) _ other).run log).1 = _
  rw [run_read_stored ((hctx.answer_eq log other).trans hother)]
  rfl

theorem forall₂_reference (h : ∀ id ∈ ids, (ctx.answer [] id).isSome = true) :
    List.Forall₂ (StandsFor registry ctx) ids (ids.map .reference) := by
  rw [List.forall₂_map_right_iff, List.forall₂_same]
  intro id hid
  obtain ⟨v, hv⟩ := Option.isSome_iff_exists.1 (h id hid)
  exact .present hv

/-- The cells of a range are read as the expressions that stand for them. -/
theorem agree_cells (hctx : ctx.Fixed) (h : List.Forall₂ (StandsFor registry ctx) ids cells) :
    Agree (fun _ => true) (ids.mapM (readAs (ctx.fetch registry) .null))
      (cells.mapM (Expr.evaluate registry ctx)) := by
  induction h with
  | nil => exact agree_pure []
  | cons hcell _ ih =>
    rw [List.mapM_cons, List.mapM_cons]
    exact (hcell.agree hctx).bind fun v => ih.map (v :: ·)

end Cells

/-! ## Arguments -/

section Arguments
variable {registry : Registry} {ctx : Context} {name first last : String} {f : Implementation}
  {ids : List String} {cells : List Expr}

/-- The collection of the cells and the cells themselves have the same items. -/
theorem flatten_collection_among (vs ws us : List Value) :
    Value.flatten (vs ++ .collection ws :: us) = Value.flatten (vs ++ (ws ++ us)) := by
  rw [Value.flatten_append, Value.flatten_cons_collection, Value.flatten_append, Value.flatten_append]

theorem agree_call_range (hctx : ctx.Fixed) (hname : Registry.builtin.get? name = some f)
    (hget : registry.get? name = some f) (hids : expandRange first last = .ok ids)
    (hcells : List.Forall₂ (StandsFor registry ctx) ids cells) (before after : List Expr) :
    Agree (fun _ => true)
      ((Expr.call name (before ++ .range first last :: after)).evaluate registry ctx)
      ((Expr.call name (before ++ (cells ++ after))).evaluate registry ctx) := by
  have harguments : ∀ as : List Expr, Agree (fun _ => true)
      (as.mapM (Expr.evaluate registry ctx)) (as.mapM (Expr.evaluate registry ctx)) :=
    fun as => Agree.mapM fun a _ => hctx.agree a
  simp only [Expr.evaluate, eval_call hget, List.mapM_append, List.mapM_cons, eval_range_ok hids,
    bind_assoc, pure_bind]
  refine (harguments before).bind fun vs => (agree_cells hctx hcells).bind fun ws => ?_
  refine (harguments after).bind fun us => ?_
  rw [Registry.builtin_congr hname (flatten_collection_among vs ws us)]
  exact agree_pure _

end Arguments

/-- In a fixed context a range among the arguments of a built-in function means the references to its
cells, in its order, and if cells are missing, expressions with the value null in their places. A
reference to a cell that holds null is such an expression. -/
theorem call_range_eq_call_cells {registry : Registry} {ctx : Context} {name first last : String}
    {ids : List String} (hctx : ctx.Fixed) (hname : Registry.builtin.contains name = true)
    (hget : registry.get? name = Registry.builtin.get? name)
    (hids : expandRange first last = .ok ids) (before after : List Expr) (log log' : List Lookup) :
    ((∀ id ∈ ids, (ctx.answer [] id).isSome = true) →
      (((Expr.call name (before ++ .range first last :: after)).evaluate registry ctx).run log).1 =
        (((Expr.call name (before ++ (ids.map .reference ++ after))).evaluate registry ctx).run
          log').1) ∧
    (∀ cells, List.Forall₂ (StandsFor registry ctx) ids cells →
      (((Expr.call name (before ++ .range first last :: after)).evaluate registry ctx).run log).1 =
        (((Expr.call name (before ++ (cells ++ after))).evaluate registry ctx).run log').1) ∧
    ∀ id other, ctx.answer [] id = none → ctx.answer [] other = some .null →
      StandsFor registry ctx id (.reference other) := by
  rw [contains_eq] at hname
  obtain ⟨f, hf⟩ := Option.isSome_iff_exists.1 hname
  have hcall := fun cells (hcells : List.Forall₂ (StandsFor registry ctx) ids cells) =>
    agree_all_iff.1 (agree_call_range hctx hf (hget.trans hf) hids hcells before after) log log'
  exact ⟨fun hpresent => hcall _ (forall₂_reference hpresent), hcall,
    fun id other => standsFor_null hctx⟩

/-- A nested collection, a missing cell and a formula, and null in another place. -/
def gappedColumn : Cells :=
  ((Cells.empty.insert "A_1" (.collection [.number 1, .collection [.text "x", .null]])).insert "A_3"
    (.ofFormula (.reference "B_1") ((Cells.empty.insert "B_1" (.text "lazy")).context 1))).insert
      "C_1" .null

theorem fixed_gappedColumn : (gappedColumn.context 0).Fixed := by
  have hlazy : ((Cells.empty.insert "B_1" (.text "lazy")).context 1).Fixed :=
    Cells.fixed_insert (v := .text "lazy") Cells.fixed_empty trivial
  refine Cells.fixed_insert (v := .null) (Cells.fixed_insert ?_ ⟨hlazy.answer_eq, hlazy.stored⟩) trivial
  exact Cells.fixed_insert (v := .collection [.number 1, .collection [.text "x", .null]])
    Cells.fixed_empty ⟨trivial, ⟨trivial, trivial, trivial⟩, trivial⟩

theorem call_gappedColumn :
    expandRange "A_1" "A_3" = .ok ["A_1", "A_2", "A_3"] ∧
    (((Expr.call "SUM" [.text "a", .range "A_1" "A_3", .number 5]).evaluate .builtin
        (gappedColumn.context 0)).run []).1 =
      (((Expr.call "SUM" [.text "a", .reference "A_1", .reference "C_1", .reference "A_3",
        .number 5]).evaluate .builtin (gappedColumn.context 0)).run []).1 := by
  have hids : expandRange "A_1" "A_3" = .ok ["A_1", "A_2", "A_3"] := by decide +kernel
  have hname : Registry.builtin.contains "SUM" = true := by decide +kernel
  obtain ⟨-, hcall, hnull⟩ := call_range_eq_call_cells fixed_gappedColumn hname rfl hids
    [.text "a"] [.number 5] [] []
  refine ⟨hids, hcall [.reference "A_1", .reference "C_1", .reference "A_3"] ?_⟩
  exact .cons (.present rfl) (.cons (hnull "A_2" "C_1" rfl rfl) (.cons (.present rfl) .nil))

end CellFormula
