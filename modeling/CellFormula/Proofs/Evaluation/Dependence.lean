import CellFormula.Proofs.Evaluation.Agreement
/-!
# What evaluation depends on

What a tree evaluates to depends on the ids that it names and on the functions that it calls, itself
or through the formulas that are read. No other cell and no other function matters.
-/

namespace CellFormula

variable {silent : Nat → Bool} {registry : Registry} {e : Expr}

section Cells
variable {cells : Cells} {key : Nat} {id : String}

/-- Contexts that differ in what they answer for an id that the tree does not name. -/
theorem agree_elsewhere {ctx ctx' : Context} (hctx : ctx.Steady silent) (hctx' : ctx'.Steady silent)
    (hanswer : ∀ other, id ≠ other → ctx.answer [] other = ctx'.answer [] other)
    (hid : id ∉ e.dependencies) :
    Agree silent (e.evaluate registry ctx) (e.evaluate registry ctx') := by
  refine agree_evaluate hctx hctx' (fun other hother => hanswer other ?_)
    fun t _ => .refl registry t
  rintro rfl
  exact hid hother

theorem agree_insert {v : Value} (hcells : (cells.context key).Steady silent)
    (hv : v.Ignores silent) (hid : id ∉ e.dependencies) :
    Agree silent (e.evaluate registry ((cells.insert id v).context key))
      (e.evaluate registry (cells.context key)) :=
  agree_elsewhere (Cells.steady_insert hcells hv) hcells
    (fun other hother => by rw [Cells.answer_insert, if_neg hother]) hid

theorem agree_erase (hcells : (cells.context key).Steady silent) (hid : id ∉ e.dependencies) :
    Agree silent (e.evaluate registry ((cells.erase id).context key))
      (e.evaluate registry (cells.context key)) :=
  agree_elsewhere (Cells.steady_erase hcells) hcells
    (fun other hother => by rw [Cells.answer_erase, if_neg hother]) hid

end Cells

theorem Registry.agreeOn_register {name : String} {f : Implementation}
    (h : ∀ as, .call name as ∉ e.nodes) : (registry.register name f).AgreeOn registry e := by
  intro other as hmem
  rw [get?_register, if_neg]
  rintro rfl
  exact h as hmem

theorem agree_register {ctx : Context} {name : String} {f : Implementation}
    (hctx : ctx.Steady silent)
    (hname : ∀ t, (Value.ofFormula e ctx).Reaches t → ∀ as, .call name as ∉ t.nodes) :
    Agree silent (e.evaluate (registry.register name f) ctx) (e.evaluate registry ctx) :=
  agree_evaluate hctx hctx (fun _ _ => rfl) fun t ht => Registry.agreeOn_register (hname t ht)

/-- The outcome of a tree is determined by what its dependencies hold and by the functions that it
calls, itself or through the formulas that are read; its dependencies are its references, but for a
range its cells in place of its corners. Hence no other cell and no other function matters. With all
contexts silent this is about fixed contexts, and the look-ups made before do not matter either. -/
theorem evaluate_depends_only_on_named (e : Expr) {log log' : List Lookup}
    (hlog : heard silent log = heard silent log') :
    (e.references = e.idsWith fun first last => [first, last]) ∧
    (∀ (registry registry' : Registry) (ctx ctx' : Context),
      ctx.Steady silent → ctx'.Steady silent →
      (∀ id ∈ e.dependencies, ctx.answer [] id = ctx'.answer [] id) →
      (∀ t, (Value.ofFormula e ctx).Reaches t → registry.AgreeOn registry' t) →
      ((e.evaluate registry ctx).run log).1 = ((e.evaluate registry' ctx').run log').1) ∧
    (∀ (registry : Registry) (cells : Cells) (key : Nat), (cells.context key).Steady silent →
      ∀ id ∉ e.dependencies,
        (∀ v : Value, v.Ignores silent →
          ((e.evaluate registry ((cells.insert id v).context key)).run log).1 =
            ((e.evaluate registry (cells.context key)).run log').1) ∧
        ((e.evaluate registry ((cells.erase id).context key)).run log).1 =
          ((e.evaluate registry (cells.context key)).run log').1) ∧
    (∀ (registry : Registry) (ctx : Context) (name : String) (f : Implementation),
      ctx.Steady silent →
      (∀ t, (Value.ofFormula e ctx).Reaches t → ∀ as, .call name as ∉ t.nodes) →
      ((e.evaluate (registry.register name f) ctx).run log).1 =
        ((e.evaluate registry ctx).run log').1) := by
  refine ⟨e.references_eq, fun registry registry' ctx ctx' hctx hctx' hanswer hget => ?_,
    fun registry cells key hcells id hid => ⟨fun v hv => ?_, ?_⟩,
    fun registry ctx name f hctx hname => ?_⟩
  · exact (agree_evaluate hctx hctx' hanswer hget).result_eq hlog
  · exact (agree_insert hcells hv hid).result_eq hlog
  · exact (agree_erase hcells hid).result_eq hlog
  · exact (agree_register hctx hname).result_eq hlog

/-- `A_1` holds a formula over cells of its own, and `B_1` what is given. -/
def sumElsewhere (key : Nat) (given : Option Value) : Context where
  key := key
  answer _ id :=
    if id = "A_1" then
      some (.formula (.call "SUM" [.reference "B_1"]) 2 fun _ id =>
        if id = "B_1" then some (.text "b") else none)
    else if id = "B_1" then given else none

theorem fixed_sumElsewhere (key : Nat) (given : Option Value) (h : Value.FixedOption given) :
    (sumElsewhere key given).Fixed := by
  refine ⟨fun _ _ => rfl, fun id => ?_⟩
  dsimp only [sumElsewhere]
  split
  · refine ⟨fun _ _ => rfl, fun id => ?_⟩
    dsimp only
    split <;> trivial
  · split
    · exact h
    · trivial

theorem reaches_sumElsewhere {key : Nat} {given : Option Value} {t : Expr}
    (h : (Value.ofFormula (.reference "A_1") (sumElsewhere key given)).Reaches t) :
    t = .reference "A_1" ∨ t = .call "SUM" [.reference "B_1"] := by
  cases h with
  | formula => exact .inl rfl
  | named hid hv hreach =>
    cases List.mem_singleton.1 hid
    cases Option.some.inj hv
    cases hreach with
    | formula => exact .inr rfl
    | named hid hv hreach =>
      cases List.mem_singleton.1 hid
      cases Option.some.inj hv
      cases hreach

theorem evaluate_sumElsewhere :
    (sumElsewhere 0 none).Steady (fun _ => true) ∧
    (sumElsewhere 1 (some (.error "#REF"))).Steady (fun _ => true) ∧
    (∀ id ∈ (Expr.reference "A_1").dependencies,
      (sumElsewhere 0 none).answer [] id = (sumElsewhere 1 (some (.error "#REF"))).answer [] id) ∧
    (∀ t, (Value.ofFormula (.reference "A_1") (sumElsewhere 0 none)).Reaches t →
      Registry.builtin.AgreeOn (Registry.builtin.register "MAX" Value.minimum) t) ∧
    (((Expr.reference "A_1").evaluate .builtin (sumElsewhere 0 none)).run [⟨0, "A_1"⟩]).1 =
      (((Expr.reference "A_1").evaluate (Registry.builtin.register "MAX" Value.minimum)
        (sumElsewhere 1 (some (.error "#REF")))).run []).1 := by
  have hctx : (sumElsewhere 0 none).Steady fun _ => true :=
    (fixed_sumElsewhere 0 none trivial).steady rfl
  have hctx' : (sumElsewhere 1 (some (.error "#REF"))).Steady fun _ => true :=
    (fixed_sumElsewhere 1 (some (.error "#REF")) trivial).steady rfl
  have hanswer : ∀ id ∈ (Expr.reference "A_1").dependencies,
      (sumElsewhere 0 none).answer [] id =
        (sumElsewhere 1 (some (.error "#REF"))).answer [] id := by
    intro id hid
    cases List.mem_singleton.1 hid
    rfl
  have hget : ∀ t, (Value.ofFormula (.reference "A_1") (sumElsewhere 0 none)).Reaches t →
      Registry.builtin.AgreeOn (Registry.builtin.register "MAX" Value.minimum) t := by
    intro t ht name as hname
    rw [Registry.get?_register, if_neg]
    rintro rfl
    rcases reaches_sumElsewhere ht with rfl | rfl <;> simp [Expr.nodes, Expr.nodesList] at hname
  have hlog : heard (fun _ => true) [⟨0, "A_1"⟩] = heard (fun _ => true) [] := rfl
  exact ⟨hctx, hctx', hanswer, hget,
    (evaluate_depends_only_on_named _ hlog).2.1 _ _ _ _ hctx hctx' hanswer hget⟩

end CellFormula
