import CellFormula.Evaluation.Basic
import CellFormula.Proofs.Lists
/-!
# Runs of computations

A run of a computation starts from the look-ups made so far, and ends in a result and in the look-ups
that it leaves. `Ensures` says that all runs meet a postcondition. Its rules follow the ways in which
computations are put together, so that what evaluation ensures is put together in the same ways: `Then`
is what is known of two steps, and `Chain` of as many as a list has items.
-/

namespace CellFormula

/-- What is said of a run: of the look-ups made before, of its result, and of the look-ups it leaves. -/
abbrev Post (α : Type) := List Lookup → Except EvalError α → List Lookup → Prop

/-- All runs of the computation meet the postcondition. -/
def Ensures {α : Type} (x : EvalM α) (Q : Post α) : Prop :=
  ∀ log r log', x.run log = (r, log') → Q log r log'

section Rules
variable {α β : Type} {x : EvalM α} {f : α → EvalM β} {Q Q' : Post α} {log log' mid : List Lookup}
  {r : Except EvalError α}

/-! ## Single steps -/

theorem Ensures.of_run (h : ∀ log, Q log (x.run log).1 (x.run log).2) : Ensures x Q := by
  intro log r log' hrun
  simpa only [hrun] using h log

theorem ensures_pure {a : α} (h : ∀ log, Q log (.ok a) log) : Ensures (pure a) Q :=
  .of_run h

/-- What has failed already, or not at all, looks nothing up. -/
theorem ensures_lift (h : ∀ log, Q log r log) : Ensures (liftM r) Q := by
  cases r <;> exact .of_run h

theorem Ensures.imp (hx : Ensures x Q) (h : ∀ {log r log'}, Q log r log' → Q' log r log') :
    Ensures x Q' :=
  fun log r log' hrun => h (hx log r log' hrun)

/-! ## Two steps -/

theorem run_bind_ok {a : α} (h : x.run log = (.ok a, mid)) : (x >>= f).run log = (f a).run mid := by
  rw [ExceptT.run_bind]
  simp only [bind, StateT.bind, h]

theorem run_bind_error {e : EvalError} (h : x.run log = (.error e, log')) :
    (x >>= f).run log = (.error e, log') := by
  rw [ExceptT.run_bind]
  simp only [bind, StateT.bind, h]
  rfl

/-- The second step goes on from what the first leaves, unless the first fails. -/
inductive Then (Q : Post α) (S : α → Post β) : Post β
  | ok {log a mid r log'} : Q log (.ok a) mid → S a mid r log' → Then Q S log r log'
  | error {log err log'} : Q log (.error err) log' → Then Q S log (.error err) log'

theorem Ensures.bind {S : α → Post β} (hx : Ensures x Q) (hf : ∀ a, Ensures (f a) (S a)) :
    Ensures (x >>= f) (Then Q S) := by
  intro log r log' hrun
  obtain ⟨r', mid, hmid⟩ : ∃ r' mid, x.run log = (r', mid) := ⟨_, _, rfl⟩
  have hQ := hx log r' mid hmid
  cases r' with
  | ok a =>
    rw [run_bind_ok hmid] at hrun
    exact .ok hQ (hf a mid r log' hrun)
  | error err =>
    rw [run_bind_error hmid] at hrun
    cases hrun
    exact .error hQ

theorem Ensures.map {g : α → β} {S : Post β} (hx : Ensures x Q)
    (h : ∀ {log r log'}, Q log r log' → S log (r.map g) log') :
    Ensures (x >>= fun a => pure (g a)) S := by
  have hpure : ∀ a, Ensures (pure (g a) : EvalM β) fun log r log' => r = .ok (g a) ∧ log' = log :=
    fun a => ensures_pure fun _ => ⟨rfl, rfl⟩
  refine (hx.bind hpure).imp fun hthen => ?_
  cases hthen with
  | ok hQ hS =>
    obtain ⟨rfl, rfl⟩ := hS
    exact h hQ
  | error hQ => exact h hQ

end Rules

/-! ## Steps along a list -/

/-- One step for each item, each going on from what the one before leaves, up to one that fails. -/
inductive Chain {α β : Type} (Q : α → Post β) : List α → Post (List β)
  | nil {log} : Chain Q [] log (.ok []) log
  | cons {a as b bs log mid log'} : Q a log (.ok b) mid → Chain Q as mid (.ok bs) log' →
      Chain Q (a :: as) log (.ok (b :: bs)) log'
  | head {a as err log log'} : Q a log (.error err) log' → Chain Q (a :: as) log (.error err) log'
  | tail {a as b err log mid log'} : Q a log (.ok b) mid → Chain Q as mid (.error err) log' →
      Chain Q (a :: as) log (.error err) log'

section Chain
variable {α β : Type} {f : α → EvalM β} {Q : α → Post β} {as : List α} {bs : List β}
  {err : EvalError} {log log' : List Lookup} {r : Except EvalError (List β)}

theorem Ensures.mapM (h : ∀ a ∈ as, Ensures (f a) (Q a)) : Ensures (as.mapM f) (Chain Q as) := by
  induction as with
  | nil => exact ensures_pure fun _ => .nil
  | cons a as ih =>
    obtain ⟨ha, has⟩ := List.forall_mem_cons.1 h
    have hrest : ∀ b, Ensures (as.mapM f >>= fun bs => pure (b :: bs)) fun mid r log' =>
        ∀ {log}, Q a log (.ok b) mid → Chain Q (a :: as) log r log' := by
      refine fun b => (ih has).map fun {_ r _} hchain _ hb => ?_
      cases r with
      | ok bs => exact .cons hb hchain
      | error err => exact .tail hb hchain
    rw [List.mapM_cons]
    refine (ha.bind hrest).imp fun hthen => ?_
    cases hthen with
    | ok hb h => exact h hb
    | error hb => exact .head hb

theorem Chain.length_eq (h : Chain Q as log (.ok bs) log') : bs.length = as.length := by
  generalize hr : (Except.ok bs : Except EvalError (List β)) = r at h
  induction h generalizing bs with
  | nil => cases hr; rfl
  | cons _ _ ih =>
    cases hr
    rw [List.length_cons, List.length_cons, ih rfl]
  | head | tail => cases hr

/-- If no step fails, then each item has its result among the results. -/
theorem Chain.exists_result {a : α} (h : Chain Q as log (.ok bs) log') (ha : a ∈ as) :
    ∃ b ∈ bs, ∃ start mid, Q a start (.ok b) mid := by
  generalize hr : (Except.ok bs : Except EvalError (List β)) = r at h
  induction h generalizing bs with
  | nil => cases ha
  | cons hb _ ih =>
    cases hr
    rcases List.mem_cons.1 ha with rfl | ha
    · exact ⟨_, List.mem_cons_self, _, _, hb⟩
    · obtain ⟨b, hmem, hb⟩ := ih ha rfl
      exact ⟨b, List.mem_cons_of_mem _ hmem, hb⟩
  | head | tail => cases hr

/-- Each result is that of some item, and the other steps go on from there. -/
theorem Chain.exists_item {b : β} (h : Chain Q as log (.ok bs) log') (hb : b ∈ bs) :
    ∃ a ∈ as, ∃ start mid others results, Q a start (.ok b) mid ∧
      Chain Q others mid (.ok results) log' := by
  generalize hr : (Except.ok bs : Except EvalError (List β)) = r at h
  induction h generalizing bs with
  | nil =>
    cases hr
    cases hb
  | cons hQ hrest ih =>
    cases hr
    rcases List.mem_cons.1 hb with rfl | hb
    · exact ⟨_, List.mem_cons_self, _, _, _, _, hQ, hrest⟩
    · obtain ⟨a, ha, hitem⟩ := ih hb rfl
      exact ⟨a, List.mem_cons_of_mem _ ha, hitem⟩
  | head | tail => cases hr

/-- If the steps fail, then one of them has. -/
theorem Chain.exists_error (h : Chain Q as log (.error err) log') :
    ∃ a ∈ as, ∃ mid, Q a mid (.error err) log' := by
  generalize hr : (Except.error err : Except EvalError (List β)) = r at h
  induction h with
  | nil => cases hr
  | cons => cases hr
  | head ha =>
    cases hr
    exact ⟨_, List.mem_cons_self, _, ha⟩
  | tail _ _ ih =>
    obtain ⟨a, ha, hfails⟩ := ih hr
    exact ⟨a, List.mem_cons_of_mem _ ha, hfails⟩

end Chain

/-! ## Look-ups are only added -/

/-- The look-ups made before are still there. -/
def Grows {α : Type} : Post α := fun log _ log' => log <:+ log'

theorem Chain.grows {α β : Type} {Q : α → Post β} {as : List α} {log log' : List Lookup}
    {r : Except EvalError (List β)} (hQ : ∀ {a log r log'}, Q a log r log' → log <:+ log')
    (h : Chain Q as log r log') : log <:+ log' := by
  induction h with
  | nil => exact List.suffix_rfl
  | cons hb _ ih => exact (hQ hb).trans ih
  | head ha => exact hQ ha
  | tail hb _ ih => exact (hQ hb).trans ih

end CellFormula
