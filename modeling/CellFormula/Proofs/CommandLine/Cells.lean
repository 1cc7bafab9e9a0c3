import CellFormula.Proofs.CommandLine.Assignment
import CellFormula.Proofs.Evaluation.FormulaFree
/-!
# Cells given by arguments

What a list of arguments makes of each cell: of the arguments for a cell the last formula counts, or
else the last plain value, and all formulas are bound to the plain values. So the order of the
arguments matters only among those for one cell that are all plain or all formulas, and the formulas
do not see each other.
-/

namespace CellFormula.CommandLine

open CellFormula.Expr

/-! ## Filling the cells -/

/-- The value of a plain source. -/
def CellSource.plainValue? : CellSource → Option Value
  | .plain v => some v
  | .formula _ => none

/-- The value of a formula, bound to a context. -/
def CellSource.formulaValue? (ctx : Context) : CellSource → Option Value
  | .plain _ => none
  | .formula e => some (.ofFormula e ctx)

/-- What the sources give the cell, one after another, of those that `pick` has a value for. -/
def valuesFor (pick : CellSource → Option Value) (id : String)
    (sources : List (String × CellSource)) : List Value :=
  sources.filterMap fun s => if s.1 = id then pick s.2 else none

section Filling
variable {pick : CellSource → Option Value} {id other : String} {source : CellSource}
  {sources : List (String × CellSource)}

theorem valuesFor_cons_some {v : Value} (hid : other = id) (hv : pick source = some v) :
    valuesFor pick id ((other, source) :: sources) = v :: valuesFor pick id sources := by
  rw [valuesFor, List.filterMap_cons_some (by simp only [hid, if_true]; exact hv)]
  rfl

theorem valuesFor_cons_none (h : other = id → pick source = none) :
    valuesFor pick id ((other, source) :: sources) = valuesFor pick id sources := by
  rw [valuesFor, List.filterMap_cons_none]
  · rfl
  · by_cases hid : other = id
    · rw [if_pos hid, h hid]
    · rw [if_neg hid]

/-- A later value of a cell replaces an earlier one. -/
theorem get?_foldl_insert (cells : Cells) :
    (sources.foldl (fun cells s => (pick s.2).elim cells (cells.insert s.1)) cells).get? id =
      (valuesFor pick id sources).getLast?.or (cells.get? id) := by
  induction sources generalizing cells with
  | nil => rfl
  | cons s sources ih =>
    obtain ⟨other, source⟩ := s
    rw [List.foldl_cons, ih]
    cases hv : pick source with
    | none => rw [valuesFor_cons_none fun _ => hv, Option.elim_none]
    | some v =>
      rw [Option.elim_some, Cells.get?_insert]
      by_cases hid : other = id
      · rw [valuesFor_cons_some hid hv, if_pos hid, List.getLast?_cons]
        cases (valuesFor pick id sources).getLast? <;> rfl
      · rw [valuesFor_cons_none fun h => absurd h hid, if_neg hid]

theorem get?_plainCells :
    (plainCells sources).get? id = (valuesFor CellSource.plainValue? id sources).getLast? := by
  have hfold : plainCells sources = sources.foldl
      (fun cells s => s.2.plainValue?.elim cells (cells.insert s.1)) .empty := by
    unfold plainCells
    congr
    funext cells ⟨other, source⟩
    cases source <;> rfl
  rw [hfold, get?_foldl_insert, Cells.get?_empty, Option.or_none]

theorem get?_withFormulas {ctx : Context} {cells : Cells} : (withFormulas sources ctx cells).get? id =
    (valuesFor (CellSource.formulaValue? ctx) id sources).getLast?.or (cells.get? id) := by
  have hfold : withFormulas sources ctx cells = sources.foldl
      (fun cells s => (s.2.formulaValue? ctx).elim cells (cells.insert s.1)) cells := by
    unfold withFormulas
    congr
    funext cells ⟨other, source⟩
    cases source <;> rfl
  rw [hfold, get?_foldl_insert]

end Filling

/-! ## The last argument for a cell -/

/-- Whether the argument is for the cell and has a plain value. -/
def plainFor (id arg : String) : Bool :=
  (splitCell? arg).any fun (other, raw) => other = id && raw.head? ≠ some '='

/-- Whether the argument is for the cell and has a formula. -/
def formulaFor (id arg : String) : Bool :=
  (splitCell? arg).any fun (other, raw) => other = id && raw.head? = some '='

/-- The last argument that passes the test. -/
def lastWith (p : String → Bool) (args : List String) : Option String :=
  (args.filter p).getLast?

section Last
variable {d : Dialect} {arg id other : String} {source : CellSource} {args : List String}
  {sources : List (String × CellSource)}

theorem Gives.unique {source' : CellSource} (h : Gives d arg id source) (h' : Gives d arg id source') :
    source = source' := by
  cases (readCell_eq_ok.2 h).symm.trans (readCell_eq_ok.2 h')
  rfl

theorem plainFor_of_gives (h : Gives d arg other source) :
    plainFor id arg = (decide (other = id) && source.plainValue?.isSome) := by
  cases h with
  | plain hassigns hraw =>
    simp [plainFor, splitCell?_eq_some.2 hassigns, hraw, CellSource.plainValue?]
  | formula hassigns _ => simp [plainFor, splitCell?_eq_some.2 hassigns, CellSource.plainValue?]

theorem formulaFor_of_gives (ctx : Context) (h : Gives d arg other source) :
    formulaFor id arg = (decide (other = id) && (source.formulaValue? ctx).isSome) := by
  cases h with
  | plain hassigns hraw =>
    simp [formulaFor, splitCell?_eq_some.2 hassigns, hraw, CellSource.formulaValue?]
  | formula hassigns _ =>
    simp [formulaFor, splitCell?_eq_some.2 hassigns, CellSource.formulaValue?]

/-- The arguments that pass the test are those whose values are stored. -/
theorem forall₂_filter {pick : CellSource → Option Value} {p : String → Bool}
    (hp : ∀ arg other source, Gives d arg other source →
      p arg = (decide (other = id) && (pick source).isSome))
    (h : List.Forall₂ (fun arg s => readCell d arg = .ok s) args sources) :
    List.Forall₂ (fun arg v => ∃ source, Gives d arg id source ∧ pick source = some v)
      (args.filter p) (valuesFor pick id sources) := by
  induction h with
  | nil => exact .nil
  | @cons arg s args sources harg _ ih =>
    obtain ⟨other, source⟩ := s
    have hgives : Gives d arg other source := readCell_eq_ok.1 harg
    by_cases hid : other = id
    · cases hv : pick source with
      | none =>
        rw [List.filter_cons_of_neg (by simp [hp _ _ _ hgives, hv]), valuesFor_cons_none fun _ => hv]
        exact ih
      | some v =>
        rw [List.filter_cons_of_pos (by simp [hp _ _ _ hgives, hid, hv]), valuesFor_cons_some hid hv]
        exact .cons ⟨source, hid ▸ hgives, hv⟩ ih
    · rw [List.filter_cons_of_neg (by simp [hp _ _ _ hgives, hid]),
        valuesFor_cons_none fun h => absurd h hid]
      exact ih

/-- The value that is stored last is that of the last argument that passes the test. -/
theorem lastWith_valuesFor {pick : CellSource → Option Value} {p : String → Bool}
    (hp : ∀ arg other source, Gives d arg other source →
      p arg = (decide (other = id) && (pick source).isSome))
    (h : List.Forall₂ (fun arg s => readCell d arg = .ok s) args sources) :
    Option.Rel (fun arg v => ∃ source, Gives d arg id source ∧ pick source = some v)
      (lastWith p args) (valuesFor pick id sources).getLast? :=
  rel_getLast? (forall₂_filter hp h)

end Last

/-! ## What the cells hold -/

/-- The cells are what the arguments give, and the formulas among them are bound to the snapshot. -/
structure HoldLast (d : Dialect) (key : Nat) (args : List String) (cells snapshot : Cells) :
    Prop where
  /-- The snapshot has the last plain value of each cell. -/
  plain : ∀ id v, snapshot.get? id = some v ↔
    ∃ arg, lastWith (plainFor id) args = some arg ∧ Gives d arg id (.plain v)
  /-- A cell has its last formula, wherever it stands among the plain values. -/
  formula : ∀ id arg, lastWith (formulaFor id) args = some arg →
    ∃ e, Gives d arg id (.formula e) ∧ cells.get? id = some (.ofFormula e (snapshot.context key))
  /-- A cell without formulas has what the snapshot has. -/
  rest : ∀ id, lastWith (formulaFor id) args = none → cells.get? id = snapshot.get? id
  /-- No plain value is or has a formula. -/
  formulaFree : ∀ id v, snapshot.get? id = some v → v.hasFormula = false

theorem hasFormula_readPlain (raw : List Char) : (readPlain raw).hasFormula = false := by
  unfold readPlain
  dsimp only
  split
  · rfl
  split
  · rfl
  split
  · rfl
  split <;> rfl

theorem buildCells_of_mapM {d : Dialect} {key : Nat} {args : List String}
    {sources : List (String × CellSource)} (h : args.mapM (readCell d) = .ok sources) :
    buildCells d key args =
      .ok (withFormulas sources ((plainCells sources).context key) (plainCells sources)) := by
  rw [buildCells, h]
  rfl

theorem CellSource.plainValue?_eq_some {source : CellSource} {v : Value}
    (h : source.plainValue? = some v) : source = .plain v := by
  cases source with
  | plain w =>
    cases h
    rfl
  | formula e => cases h

theorem CellSource.formulaValue?_eq_some {source : CellSource} {ctx : Context} {v : Value}
    (h : source.formulaValue? ctx = some v) : ∃ e, source = .formula e ∧ v = .ofFormula e ctx := by
  cases source with
  | plain w => cases h
  | formula e =>
    cases h
    exact ⟨e, rfl, rfl⟩

theorem holdLast_of_mapM {d : Dialect} {key : Nat} {args : List String}
    {sources : List (String × CellSource)} (h : args.mapM (readCell d) = .ok sources) :
    HoldLast d key args (withFormulas sources ((plainCells sources).context key) (plainCells sources))
      (plainCells sources) := by
  have hsources := forall₂_of_mapM h
  have hplain (id : String) : Option.Rel
      (fun arg v => ∃ source, Gives d arg id source ∧ source.plainValue? = some v)
      (lastWith (plainFor id) args) (valuesFor CellSource.plainValue? id sources).getLast? :=
    lastWith_valuesFor (fun _ _ _ => plainFor_of_gives) hsources
  have hformula (id : String) (ctx : Context) : Option.Rel
      (fun arg v => ∃ source, Gives d arg id source ∧ source.formulaValue? ctx = some v)
      (lastWith (formulaFor id) args) (valuesFor (CellSource.formulaValue? ctx) id sources).getLast? :=
    lastWith_valuesFor (fun _ _ _ => formulaFor_of_gives ctx) hsources
  refine ⟨fun id v => ⟨fun hv => ?_, ?_⟩, fun id arg harg => ?_, fun id hnone => ?_, fun id v hv => ?_⟩
  · rw [get?_plainCells] at hv
    obtain ⟨arg, harg, source, hgives, hsource⟩ := rel_some_right (hv ▸ hplain id)
    cases CellSource.plainValue?_eq_some hsource
    exact ⟨arg, harg, hgives⟩
  · rintro ⟨arg, harg, hgives⟩
    obtain ⟨w, hw, source, hgives', hsource⟩ := rel_some_left (harg ▸ hplain id)
    cases hgives.unique hgives'
    cases hsource
    rw [get?_plainCells, hw]
  · obtain ⟨w, hw, source, hgives, hsource⟩ := rel_some_left (harg ▸ hformula id _)
    obtain ⟨e, rfl, rfl⟩ := CellSource.formulaValue?_eq_some hsource
    refine ⟨e, hgives, ?_⟩
    rw [get?_withFormulas, hw, Option.some_or]
  · have hno := hformula id ((plainCells sources).context key)
    rw [hnone] at hno
    rw [get?_withFormulas, rel_none_left hno, Option.none_or]
  · rw [get?_plainCells] at hv
    obtain ⟨arg, -, source, hgives, hsource⟩ := rel_some_right (hv ▸ hplain id)
    cases CellSource.plainValue?_eq_some hsource
    cases hgives
    exact hasFormula_readPlain _

/-! ## Evaluation in the cells -/

/-- The trees that are evaluated one inside the other when the value is read, the outermost first. -/
inductive Nests : Value → List Expr → Prop
  | formula (e : Expr) (key : Nat) (answer : List Lookup → String → Option Value) :
    Nests (.formula e key answer) [e]
  | item {items : List Value} {v : Value} {ts : List Expr} :
    v ∈ items → Nests v ts → Nests (.collection items) ts
  | named {e : Expr} {key : Nat} {answer : List Lookup → String → Option Value} {log : List Lookup}
      {id : String} {v : Value} {ts : List Expr} :
    id ∈ e.dependencies → answer log id = some v → Nests v ts →
      Nests (.formula e key answer) (e :: ts)

theorem hasFormula_of_nests {v : Value} {ts : List Expr} (h : Nests v ts) : v.hasFormula = true := by
  induction h with
  | formula => rfl
  | named => rfl
  | @item items v ts hv _ ih =>
    by_contra hitems
    rw [Value.hasFormula, Bool.not_eq_true, Value.hasFormulaList_eq_false] at hitems
    simp [hitems v hv] at ih

section Nesting
variable {d : Dialect} {key : Nat} {args : List String} {cells snapshot : Cells}

theorem nests_ofFormula {e : Expr} {k : Nat} {ts : List Expr}
    (h : Nests (.ofFormula e (cells.context k)) ts) :
    ts = [e] ∨ ∃ id ∈ e.dependencies, ∃ v ts', cells.get? id = some v ∧ Nests v ts' ∧ ts = e :: ts' := by
  cases h with
  | formula => exact .inl rfl
  | @named _ _ _ log id v ts' hid hv hts => exact .inr ⟨id, hid, v, ts', hv, hts, rfl⟩

/-- A formula in the cells reads plain values only. -/
theorem HoldLast.nests_inside (h : HoldLast d key args cells snapshot) {e : Expr} {ts : List Expr}
    (hts : Nests (.ofFormula e (snapshot.context key)) ts) : ts = [e] := by
  rcases nests_ofFormula hts with hts | ⟨id, -, v, ts', hv, hts', -⟩
  · exact hts
  · have hfree := h.formulaFree id v hv
    simp [hasFormula_of_nests hts'] at hfree

/-- So a formula that is evaluated in the cells reads formulas that read plain values. -/
theorem HoldLast.nests_outside (h : HoldLast d key args cells snapshot) {e : Expr} {k : Nat}
    {ts : List Expr} (hts : Nests (.ofFormula e (cells.context k)) ts) :
    ts = [e] ∨ ∃ id ∈ e.dependencies, ∃ arg t, lastWith (formulaFor id) args = some arg ∧
      Gives d arg id (.formula t) ∧ ts = [e, t] := by
  rcases nests_ofFormula hts with hts | ⟨id, hid, v, ts', hv, hts', rfl⟩
  · exact .inl hts
  · cases hlast : lastWith (formulaFor id) args with
    | none =>
      rw [h.rest id hlast] at hv
      have hfree := h.formulaFree id v hv
      simp [hasFormula_of_nests hts'] at hfree
    | some arg =>
      obtain ⟨t, hgives, ht⟩ := h.formula id arg hlast
      cases ht.symm.trans hv
      cases h.nests_inside hts'
      exact .inr ⟨id, hid, arg, t, hlast, hgives, rfl⟩

/-- A look-up inside a formula cell evaluates nothing. -/
theorem HoldLast.run_fetch (h : HoldLast d key args cells snapshot) (registry : Registry)
    (id : String) (log : List Lookup) :
    ((snapshot.context key).fetch registry id).run log =
      (.ok (snapshot.get? id), ⟨key, id⟩ :: log) := by
  rw [Context.run_fetch, show (snapshot.context key).answer log id = snapshot.get? id from rfl,
    resolveOption_of_hasFormula _ (h.formulaFree id)]
  rfl

end Nesting

/-! ## The order of the arguments -/

section Order
variable {d : Dialect} {key : Nat} {args args' : List String} {cells cells' snapshot snapshot' : Cells}

/-- Only the last arguments for each cell count. -/
theorem HoldLast.get?_eq (h : HoldLast d key args cells snapshot)
    (h' : HoldLast d key args' cells' snapshot')
    (hplain : ∀ id, lastWith (plainFor id) args' = lastWith (plainFor id) args)
    (hformula : ∀ id, lastWith (formulaFor id) args' = lastWith (formulaFor id) args) (id : String) :
    cells'.get? id = cells.get? id := by
  have hsnapshot : snapshot'.get? = snapshot.get? := by
    funext id
    apply Option.ext
    intro v
    rw [h.plain, h'.plain, hplain]
  cases hlast : lastWith (formulaFor id) args with
  | none => rw [h.rest id hlast, h'.rest id ((hformula id).trans hlast), hsnapshot]
  | some arg =>
    obtain ⟨e, hgives, hcell⟩ := h.formula id arg hlast
    obtain ⟨e', hgives', hcell'⟩ := h'.formula id arg ((hformula id).trans hlast)
    cases hgives.unique hgives'
    rw [hcell, hcell', Cells.context, Cells.context, hsnapshot]

theorem context_eq (h : ∀ id, cells'.get? id = cells.get? id) (k : Nat) :
    cells'.context k = cells.context k := by
  rw [Cells.context, Cells.context, funext h]

end Order

/-! ## What is built -/

theorem buildCells_eq_error {d : Dialect} {key : Nat} {args : List String} {f : Failure} :
    buildCells d key args = .error f ↔ FirstFails (Faulty d) args f := by
  have hfails : FirstFails (fun arg x => readCell d arg = .error x) args f ↔
      FirstFails (Faulty d) args f := by
    simp only [readCell_eq_error]
  rw [← hfails, ← mapM_eq_error]
  cases h : args.mapM (readCell d) with
  | error x => simp [buildCells, h, bind, Except.bind]
  | ok sources => simp [buildCells_of_mapM h]

theorem holdLast_of_buildCells {d : Dialect} {key : Nat} {args : List String} {cells : Cells}
    (h : buildCells d key args = .ok cells) : ∃ snapshot, HoldLast d key args cells snapshot := by
  cases hsources : args.mapM (readCell d) with
  | error x =>
    rw [buildCells, hsources] at h
    cases h
  | ok sources =>
    rw [buildCells_of_mapM hsources] at h
    cases h
    exact ⟨_, holdLast_of_mapM hsources⟩

theorem exists_buildCells_eq_error {d : Dialect} {key : Nat} {args : List String} :
    (∃ f, buildCells d key args = .error f) ↔ ∃ arg ∈ args, ∃ f, Faulty d arg f := by
  simp only [buildCells_eq_error, exists_firstFails]

/-- The first faulty argument is reported. Without one each cell holds its last formula, or else its
last plain value. The formulas read the last plain values, so the evaluation of a formula in the cells
is at most two formulas deep. Neither depends on the order of the arguments, except of those for one
cell that are all plain or all formulas. -/
theorem buildCells_keeps_last (d : Dialect) (key : Nat) (args : List String) :
    ((∃ f, buildCells d key args = .error f) ↔ ∃ arg ∈ args, ∃ f, Faulty d arg f) ∧
    (∀ f, buildCells d key args = .error f ↔ FirstFails (Faulty d) args f) ∧
    ∀ cells, buildCells d key args = .ok cells →
      (∃ snapshot, HoldLast d key args cells snapshot ∧
        (∀ registry id log, ((snapshot.context key).fetch registry id).run log =
          (.ok (snapshot.get? id), ⟨key, id⟩ :: log)) ∧
        ∀ e k ts, Nests (.ofFormula e (cells.context k)) ts →
          ts = [e] ∨ ∃ id ∈ e.dependencies, ∃ arg t, lastWith (formulaFor id) args = some arg ∧
            Gives d arg id (.formula t) ∧ ts = [e, t]) ∧
      ∀ args', args'.Perm args →
        (∀ id, args'.filter (plainFor id) = args.filter (plainFor id)) →
        (∀ id, args'.filter (formulaFor id) = args.filter (formulaFor id)) →
        ∃ cells', buildCells d key args' = .ok cells' ∧ (∀ id, cells'.get? id = cells.get? id) ∧
          ∀ (registry : Registry) (e : Expr) (k : Nat),
            e.evaluate registry (cells'.context k) = e.evaluate registry (cells.context k) := by
  refine ⟨exists_buildCells_eq_error, fun f => buildCells_eq_error, fun cells hcells => ⟨?_, ?_⟩⟩
  · obtain ⟨snapshot, h⟩ := holdLast_of_buildCells hcells
    exact ⟨snapshot, h, h.run_fetch, fun e k ts => h.nests_outside⟩
  · intro args' hperm hplain hformula
    obtain ⟨snapshot, h⟩ := holdLast_of_buildCells hcells
    cases hcells' : buildCells d key args' with
    | error f =>
      -- The faulty argument would stand among the others as well.
      obtain ⟨arg, harg, hfaulty⟩ := exists_buildCells_eq_error.1 ⟨f, hcells'⟩
      obtain ⟨f', hf'⟩ := exists_buildCells_eq_error.2 ⟨arg, hperm.mem_iff.1 harg, hfaulty⟩
      cases hcells.symm.trans hf'
    | ok cells' =>
      obtain ⟨snapshot', h'⟩ := holdLast_of_buildCells hcells'
      have hget (id : String) : cells'.get? id = cells.get? id :=
        h.get?_eq h' (fun id => by rw [lastWith, lastWith, hplain])
          (fun id => by rw [lastWith, lastWith, hformula]) id
      refine ⟨cells', rfl, hget, fun registry e k => ?_⟩
      rw [context_eq hget]

theorem buildCells_swapped : ∃ cells cells',
    buildCells .standard 1 ["A_1=4", "B_1==A_1*2", " A_1 = 5"] = .ok cells ∧
    buildCells .standard 1 ["B_1==A_1*2", "A_1=4", " A_1 = 5"] = .ok cells' ∧
    ∀ id, cells'.get? id = cells.get? id := by
  have hplain : splitCell? "A_1=4" = some ("A_1", ['4']) := by decide +kernel
  have hformula : splitCell? "B_1==A_1*2" = some ("B_1", ['=', 'A', '_', '1', '*', '2']) := by
    decide +kernel
  have hok : (buildCells .standard 1 ["A_1=4", "B_1==A_1*2", " A_1 = 5"]).isOk = true := by
    decide +kernel
  cases hcells : buildCells .standard 1 ["A_1=4", "B_1==A_1*2", " A_1 = 5"] with
  | error f =>
    rw [hcells] at hok
    cases hok
  | ok cells =>
    obtain ⟨cells', hcells', hget, -⟩ := ((buildCells_keeps_last .standard 1 _).2.2 cells hcells).2
      ["B_1==A_1*2", "A_1=4", " A_1 = 5"] (List.Perm.swap _ _ _)
      (fun id => by simp [List.filter_cons, plainFor, hplain, hformula])
      (fun id => by simp [List.filter_cons, formulaFor, hplain, hformula])
    exact ⟨cells, cells', rfl, hcells', hget⟩

end CellFormula.CommandLine
