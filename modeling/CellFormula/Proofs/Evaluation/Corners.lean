import CellFormula.Proofs.Evaluation.Lookups
import CellFormula.Proofs.Expr.RoundTrip
/-!
# Where formulas fail

However contexts answer, an evaluation that fails has evaluated some tree that fails at a node of its
own: the tree itself, or that of a formula that it has read. The trees of formula texts call only
functions of their dialect, and the standard names are all registered, so what is left for them to
fail at are the corners of ranges.
-/

namespace CellFormula

open CellFormula.Expr

/-! ## The tree that fails -/

namespace Value

/-- When the look-ups are these, reading the value has come to evaluate the tree in the context: it
is the tree of a formula in the value, or of one in what a look-up for such a tree has found. -/
inductive ReadsAlong (lookups : List Lookup) : Value → Expr → Context → Prop
  | formula {e key answer} : ReadsAlong lookups (.formula e key answer) e ⟨key, answer⟩
  | item {items v t ctx} : v ∈ items → ReadsAlong lookups v t ctx →
      ReadsAlong lookups (.collection items) t ctx
  | named {e t : Expr} {key answer log id v ctx} : id ∈ e.dependencies →
      ⟨key, id⟩ :: log <:+ lookups → answer log id = some v → ReadsAlong lookups v t ctx →
      ReadsAlong lookups (.formula e key answer) t ctx

/-- Of the trees that reading the value evaluates one fails with the error, at a node of its own. -/
def FailsAt (registry : Registry) (v : Value) (lookups : List Lookup) (err : EvalError) : Prop :=
  ∃ t ctx log n, v.ReadsAlong lookups t ctx ∧
    (t.evaluate registry ctx).run log = (.error err, lookups) ∧ n ∈ t.nodes ∧
    n.ownFault registry = some err

section FailsAt
variable {registry : Registry} {lookups : List Lookup} {err : EvalError}

theorem FailsAt.item {items : List Value} {v : Value} (hv : v ∈ items)
    (h : v.FailsAt registry lookups err) : (collection items).FailsAt registry lookups err := by
  obtain ⟨t, ctx, log, n, hread, hrun, hn⟩ := h
  exact ⟨t, ctx, log, n, .item hv hread, hrun, hn⟩

theorem FailsAt.named {e : Expr} {ctx : Context} {log : List Lookup} {id : String} {v : Value}
    (hid : id ∈ e.dependencies) (hlog : ⟨ctx.key, id⟩ :: log <:+ lookups)
    (hanswer : ctx.answer log id = some v) (h : v.FailsAt registry lookups err) :
    (ofFormula e ctx).FailsAt registry lookups err := by
  obtain ⟨t, ctx', log', n, hread, hrun, hn⟩ := h
  exact ⟨t, ctx', log', n, .named hid hlog hanswer hread, hrun, hn⟩

/-- If the run fails, then the property holds of the look-ups that it leaves and of the error. -/
def Fails {α : Type} (P : List Lookup → EvalError → Prop) : Post α := fun _ r log' =>
  ∀ err, r = .error err → P log' err

/-- A tree fails in a formula that it reads, or at a node of its own. -/
theorem fails_eval {e : Expr} {ctx : Context}
    (hread : ∀ log id v, ctx.answer log id = some v →
      Ensures (v.resolve registry) (Fails (v.FailsAt registry))) :
    Ensures (e.evaluate registry ctx) (Fails fun lookups err =>
      (ofFormula e ctx).FailsAt registry lookups err ∨
        ∃ n ∈ e.nodes, n.ownFault registry = some err) := by
  refine ensures_eval (R := fun _ _ => Fails ((ofFormula e ctx).FailsAt registry))
    (Q := fun _ => Fails fun lookups err => (ofFormula e ctx).FailsAt registry lookups err ∨
      ∃ n ∈ e.nodes, n.ownFault registry = some err) (fun n hn id hid => ?_)
    fun n hn log r log' _ hstep err herr => ?_
  · refine ensures_read (fun _ _ => nofun) fun log v hv r log' hrun err herr => ?_
    exact (hread log id v hv _ r log' hrun err herr).named (List.mem_flatMap.2 ⟨n, hn, hid⟩)
      (grows_resolve v _ r log' hrun) hv
  · cases hstep with
    | operand h =>
      obtain ⟨a, _, _, ha⟩ := h.exists_error
      cases herr
      exact ha err rfl
    | cell _ h =>
      obtain ⟨id, _, _, hid⟩ := h.exists_error
      cases herr
      exact .inl (hid err rfl)
    | @finish _ vs _ ws =>
      refine .inr ⟨n, hn, ?_⟩
      rw [← errorOf_finish registry vs ws, herr]
      rfl

theorem failsAt_evaluate {e : Expr} {ctx : Context}
    (hread : ∀ log id v, ctx.answer log id = some v →
      Ensures (v.resolve registry) (Fails (v.FailsAt registry))) :
    Ensures (e.evaluate registry ctx) (Fails ((ofFormula e ctx).FailsAt registry)) := by
  intro log r log' hrun err herr
  rcases fails_eval hread log r log' hrun err herr with h | ⟨n, hn, hfault⟩
  · exact h
  · rw [herr] at hrun
    exact ⟨e, ctx, log, n, .formula, hrun, hn, hfault⟩

theorem failsAt_resolve (v : Value) : Ensures (v.resolve registry) (Fails (v.FailsAt registry)) := by
  induction v using Value.induction with
  | text _ | number _ | boolean _ | null | error _ => exact ensures_pure fun _ => nofun
  | collection items ih =>
    rw [resolve_collection]
    refine (Ensures.mapM ih).map fun {_ r _} hchain err herr => ?_
    cases r with
    | ok vs => cases herr
    | error =>
      obtain ⟨v, hv, _, hfails⟩ := hchain.exists_error
      cases herr
      exact (hfails err rfl).item hv
  | formula e ctx ih =>
    rw [resolve_ofFormula]
    exact failsAt_evaluate ih

end FailsAt

end Value

/-! ## Formulas of texts -/

section Nodes
variable {d : Dialect}

mutual

/-- A legible tree calls only functions of its dialect. -/
theorem isFunctionWord_of_mem_nodes {name : String} {bs : List Expr} : (e : Expr) →
    (argument : Bool) → e.legible d argument = true → .call name bs ∈ e.nodes →
    d.isFunctionWord name = true
  | .number _, _ | .text _, _ | .reference _, _ | .range .., _ => by
    intro _ hmem
    simp [nodes] at hmem
  | .unary .identity _, _ => nofun
  | .unary .negate a, _ => by
    intro h hmem
    have hmem : .call name bs ∈ a.nodes := by simpa [nodes] using hmem
    exact isFunctionWord_of_mem_nodes a false h hmem
  | .binary op a b, _ => by
    intro h hmem
    obtain ⟨ha, hb⟩ := Bool.and_eq_true_iff.1 h
    have hmem : .call name bs ∈ a.nodes ∨ .call name bs ∈ b.nodes := by simpa [nodes] using hmem
    rcases hmem with hmem | hmem
    · exact isFunctionWord_of_mem_nodes a false ha hmem
    · exact isFunctionWord_of_mem_nodes b false hb hmem
  | .call other as, _ => by
    intro h hmem
    obtain ⟨hname, has⟩ := Bool.and_eq_true_iff.1 h
    rcases List.mem_append.1 hmem with hmem | hmem
    · exact isFunctionWord_of_mem_nodesList as has hmem
    · cases List.mem_singleton.1 hmem
      exact hname

theorem isFunctionWord_of_mem_nodesList {name : String} {bs : List Expr} : (as : List Expr) →
    legibleArguments d as = true → .call name bs ∈ nodesList as → d.isFunctionWord name = true
  | [] => fun _ hmem => by cases hmem
  | a :: as => by
    intro h hmem
    obtain ⟨ha, has⟩ := Bool.and_eq_true_iff.1 h
    rcases List.mem_append.1 hmem with hmem | hmem
    · exact isFunctionWord_of_mem_nodes a true ha hmem
    · exact isFunctionWord_of_mem_nodesList as has hmem

end

end Nodes

/-- The names that words are told apart by are the names that are registered. -/
theorem Registry.contains_builtin : ∀ name ∈ Dialect.builtinNames, builtin.contains name = true := by
  decide +kernel

/-- With the built-in functions a node of a legible tree fails only at the corner of a range. -/
theorem ownFault_of_legible {e n : Expr} {err : EvalError} (he : e.legible .standard false = true)
    (hn : n ∈ e.nodes) (hfault : n.ownFault .builtin = some err) :
    ∃ id first last, err = .invalidReference id ∧ CellId.read? id = none ∧
      n = .range first last ∧ (id = first ∨ id = last) := by
  cases n with
  | range first last =>
    rw [ownFault, expandRange_eq] at hfault
    split at hfault
    · rename_i hfirst
      cases hfault
      exact ⟨first, first, last, rfl, hfirst, rfl, .inl rfl⟩
    · rename_i hlast
      cases hfault
      exact ⟨last, first, last, rfl, hlast, rfl, .inr rfl⟩
    · cases hfault
  | call name as =>
    have hword := isFunctionWord_of_mem_nodes e false he hn
    have hname : Dialect.builtinNames.contains name = true := (Bool.and_eq_true_iff.1 hword).2
    rw [ownFault, Registry.contains_builtin name (List.contains_iff_mem.1 hname)] at hfault
    cases hfault
  | _ => cases hfault

namespace Value

mutual

/-- All formulas in the value, and in what their contexts answer at any time, are those of standard
texts. -/
def Parsed : Value → Prop
  | formula e _ answer =>
    (∃ text, parse .standard text = .ok e) ∧ ∀ log id, ParsedOption (answer log id)
  | collection items => ParsedList items
  | _ => True
termination_by structural v => v

/-- All of the values hold parsed formulas only. -/
def ParsedList : List Value → Prop
  | [] => True
  | v :: vs => Parsed v ∧ ParsedList vs
termination_by structural vs => vs

/-- The answer of a context holds parsed formulas only, if there is one. -/
def ParsedOption : Option Value → Prop
  | none => True
  | some v => Parsed v
termination_by structural v => v

end

theorem parsed_of_mem {vs : List Value} {v : Value} (h : ParsedList vs) (hv : v ∈ vs) : v.Parsed := by
  induction vs with
  | nil => cases hv
  | cons w vs ih =>
    rcases List.mem_cons.1 hv with rfl | hv
    · exact h.1
    · exact ih h.2 hv

/-- What is read of parsed formulas is again a parsed formula. -/
theorem ReadsAlong.exists_parse {lookups : List Lookup} {v : Value} {t : Expr} {ctx : Context}
    (h : v.ReadsAlong lookups t ctx) : v.Parsed → ∃ text, parse .standard text = .ok t := by
  induction h with
  | formula => exact fun hv => hv.1
  | item hv _ ih => exact fun hvs => ih (parsed_of_mem hvs hv)
  | @named e t key answer log id v ctx _ _ hanswer _ ih =>
    intro hformula
    have hstored : ParsedOption (answer log id) := hformula.2 log id
    rw [hanswer] at hstored
    exact ih hstored

end Value

/-- All formulas that the context answers with at any time are those of standard texts, and so are
the formulas that their contexts answer with. -/
def Context.Parsed (ctx : Context) : Prop :=
  ∀ log id, Value.ParsedOption (ctx.answer log id)

/-- The parser builds only legible trees: their numbers are finite and have no sign, their names are
words that the dialect tells apart, ranges stand among the arguments of calls, and no sign is an
identity. So where all formulas come from standard texts, evaluation with the built-in functions
fails at no name, but only at a range in a tree that it has come to evaluate, and the error is about
a corner of it that is no cell id. -/
theorem parsed_formulas_fail_at_corners :
    (∀ (d : Dialect) (text : String) (e : Expr), parse d text = .ok e →
      e.legible d false = true) ∧
    ∀ (text : String) (e : Expr) (ctx : Context) (log lookups : List Lookup) (err : EvalError),
      parse .standard text = .ok e → ctx.Parsed →
      (e.evaluate .builtin ctx).run log = (.error err, lookups) →
      ∃ id, err = .invalidReference id ∧ CellId.read? id = none ∧
        ∃ t ctx' log' first last, (Value.ofFormula e ctx).ReadsAlong lookups t ctx' ∧
          (t.evaluate .builtin ctx').run log' = (.error err, lookups) ∧
          .range first last ∈ t.nodes ∧ (id = first ∨ id = last) := by
  refine ⟨fun d text e => legible_of_parse, fun text e ctx log lookups err he hctx hrun => ?_⟩
  obtain ⟨t, ctx', log', n, hread, hrun', hn, hfault⟩ :=
    Value.failsAt_resolve (.ofFormula e ctx) log _ lookups hrun err rfl
  obtain ⟨text', ht⟩ := hread.exists_parse ⟨⟨text, he⟩, hctx⟩
  obtain ⟨id, first, last, rfl, hid, rfl, hcorner⟩ :=
    ownFault_of_legible (legible_of_parse ht) hn hfault
  exact ⟨id, rfl, hid, t, ctx', log', first, last, hread, hrun', hn, hcorner⟩

/-- What is looked up first is missing, and what is looked up next has the formula `MAX(A_1:A2)`. -/
def belatedRange : Context :=
  ⟨0, fun log _ =>
    if log.length = 1 then some (.formula (.call "MAX" [.range "A_1" "A2"]) 1 fun _ _ => none)
    else none⟩

theorem evaluate_belatedRange :
    parse .standard (binary .add (reference "C_1") (reference "C_1")).print =
      .ok (binary .add (reference "C_1") (reference "C_1")) ∧
    belatedRange.Parsed ∧
    ((binary .add (reference "C_1") (reference "C_1")).evaluate .builtin belatedRange).run [] =
      (.error (.invalidReference "A2"), [⟨0, "C_1"⟩, ⟨0, "C_1"⟩]) ∧
    ∃ id, EvalError.invalidReference "A2" = .invalidReference id ∧ CellId.read? id = none := by
  have hsum : parse .standard (binary .add (reference "C_1") (reference "C_1")).print =
      .ok (binary .add (reference "C_1") (reference "C_1")) :=
    (parse_print_of_legible Dialect.standard_conventional (by decide +kernel)).2 ⟨rfl, rfl⟩
  have hrange : parse .standard (call "MAX" [range "A_1" "A2"]).print =
      .ok (call "MAX" [range "A_1" "A2"]) :=
    (parse_print_of_legible Dialect.standard_conventional (by decide +kernel)).2 ⟨rfl, rfl⟩
  have hparsed : belatedRange.Parsed := by
    intro log id
    dsimp only [belatedRange]
    split
    · exact ⟨⟨_, hrange⟩, fun _ _ => trivial⟩
    · trivial
  have hrun : ((binary .add (reference "C_1") (reference "C_1")).evaluate .builtin
      belatedRange).run [] = (.error (.invalidReference "A2"), [⟨0, "C_1"⟩, ⟨0, "C_1"⟩]) := by
    rfl
  obtain ⟨id, herr, hid, -⟩ := parsed_formulas_fail_at_corners.2 _ _ _ _ _ _ hsum hparsed hrun
  exact ⟨hsum, hparsed, hrun, id, herr, hid⟩

end CellFormula
