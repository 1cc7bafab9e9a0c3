import CellFormula.Proofs.Value.Leaves
import CellFormula.Registry
/-!
# What aggregates answer

All built-in functions flatten their arguments. Each of them answers with the first error among the
items, or with null if there are no items, and otherwise reduces them to a text, a number or one of them
(`firstErrorOr`). So they agree on errors, on null and on what they look at (`aggregates_agree`).
-/

namespace CellFormula

namespace Value

/-! ## Answers -/

/-- What an aggregate can answer where its flattened arguments are these. -/
inductive Aggregated (vs : List Value) : Value → Prop
  | error {e} : firstError? vs = some e → Aggregated vs e
  | null : firstError? vs = none → Aggregated vs .null
  | text {s} : firstError? vs = none → Aggregated vs (.text s)
  | number {x} : firstError? vs = none → Aggregated vs (.number x)
  | item {v} : firstError? vs = none → v ∈ vs → Aggregated vs v

theorem extremeFrom_mem (wanted : Ordering) (best : Value) (vs : List Value) :
    extremeFrom wanted best vs ∈ best :: vs := by
  induction vs generalizing best with
  | nil => exact List.mem_singleton.2 rfl
  | cons v vs ih =>
    rw [extremeFrom, List.foldl_cons]
    split
    · exact List.mem_cons_of_mem _ (ih v)
    · rcases List.mem_cons.1 (ih best) with h | h
      · exact List.mem_cons.2 (.inl h)
      · exact List.mem_cons_of_mem _ (List.mem_cons_of_mem _ h)

/-! ## What aggregates have in common -/

/-- The first error of the items, or null where there are none, or else what the items are reduced to. -/
def firstErrorOr (reduce : List Value → Value) (vs : List Value) : Value :=
  match firstError? vs with
  | some e => e
  | none => if vs.isEmpty then null else reduce vs

section Items
variable {reduce : List Value → Value} {vs : List Value} {v : Value}

theorem firstError?_eq_none : firstError? vs = none ↔ ∀ v ∈ vs, v.isError = false := by
  simp only [firstError?, List.find?_eq_none, Bool.not_eq_true]

theorem firstErrorOr_of_error (h : firstError? vs = some v) : firstErrorOr reduce vs = v := by
  rw [firstErrorOr, h]

theorem firstErrorOr_of_ok (herror : firstError? vs = none) (hne : vs ≠ []) :
    firstErrorOr reduce vs = reduce vs := by
  rw [firstErrorOr, herror]
  exact if_neg (mt List.isEmpty_iff.1 hne)

/-- An answer that is neither an error nor null is made by the reduction. -/
theorem firstErrorOr_eq (h : firstErrorOr reduce vs = v) (herror : v.isError = false) (hnull : v ≠ null) :
    firstError? vs = none ∧ vs ≠ [] ∧ reduce vs = v := by
  cases hfirst : firstError? vs with
  | some e =>
    rw [firstErrorOr_of_error hfirst] at h
    subst h
    cases herror.symm.trans (List.find?_some hfirst)
  | none =>
    rw [firstErrorOr, hfirst] at h
    dsimp only at h
    split at h
    · exact absurd h.symm hnull
    · rename_i hempty
      exact ⟨rfl, mt List.isEmpty_iff.2 hempty, h⟩

theorem aggregated_firstErrorOr (h : firstError? vs = none → Aggregated vs (reduce vs)) :
    Aggregated vs (firstErrorOr reduce vs) := by
  unfold firstErrorOr
  split
  · exact .error ‹_›
  split
  · exact .null ‹_›
  · exact h ‹_›

end Items

/-- The texts of the items joined if there is a text among them, or else their total. -/
def joinOrTotal (vs : List Value) : Value :=
  if vs.any isText then text (String.join (vs.map toText)) else number (total vs)

/-- The total of the items over their count. -/
def mean (vs : List Value) : Value :=
  number (total vs / Float.ofNat vs.length)

/-- The best of the items, from the left. -/
def best (wanted : Ordering) : List Value → Value
  | [] => null
  | v :: vs => extremeFrom wanted v vs

section Reductions
variable (arguments : List Value)

/-- Whether errors or items are looked for first makes no difference. -/
theorem firstErrorOr_eq_ite (reduce : List Value → Value) (vs : List Value) : firstErrorOr reduce vs =
    if vs.isEmpty then null else
      match firstError? vs with
      | some e => e
      | none => reduce vs := by
  cases vs with
  | nil => rfl
  | cons v vs =>
    unfold firstErrorOr
    split <;> rfl

theorem sum_eq : sum arguments = firstErrorOr joinOrTotal (flatten arguments) := by
  rw [firstErrorOr_eq_ite]
  rfl

theorem average_eq : average arguments = firstErrorOr mean (flatten arguments) := by
  rw [firstErrorOr_eq_ite]
  rfl

theorem extreme_eq_best (wanted : Ordering) :
    extreme wanted arguments = firstErrorOr (best wanted) (flatten arguments) := by
  unfold extreme firstErrorOr
  generalize flatten arguments = vs
  cases hfirst : firstError? vs with
  | some e => simp only [hfirst]
  | none =>
    cases vs with
    | nil => rfl
    | cons v vs =>
      simp only [hfirst]
      rfl

end Reductions

/-- The four aggregates. -/
def aggregates : List Implementation :=
  [sum, average, maximum, minimum]

/-- Every aggregate is such a reduction of the items, which makes no errors of its own. -/
theorem exists_reduce {f : Implementation} (hf : f ∈ aggregates) : ∃ reduce : List Value → Value,
    (∀ vs, firstError? vs = none → Aggregated vs (reduce vs)) ∧
      ∀ arguments, f arguments = firstErrorOr reduce (flatten arguments) := by
  have hbest : ∀ wanted vs, firstError? vs = none → Aggregated vs (best wanted vs) := by
    intro wanted vs h
    cases vs with
    | nil => exact .null h
    | cons v vs => exact .item h (extremeFrom_mem wanted v vs)
  simp only [aggregates, List.mem_cons, List.not_mem_nil, or_false] at hf
  rcases hf with rfl | rfl | rfl | rfl
  · refine ⟨joinOrTotal, fun vs h => ?_, sum_eq⟩
    unfold joinOrTotal
    split
    · exact .text h
    · exact .number h
  · exact ⟨mean, fun vs h => .number h, average_eq⟩
  · exact ⟨best .gt, hbest .gt, fun arguments => extreme_eq_best arguments .gt⟩
  · exact ⟨best .lt, hbest .lt, fun arguments => extreme_eq_best arguments .lt⟩

section Aggregates
variable {f : Implementation} {vs ws : List Value} (hf : f ∈ aggregates)
include hf

theorem aggregated_of_mem (arguments : List Value) : Aggregated (flatten arguments) (f arguments) := by
  obtain ⟨reduce, hreduce, heq⟩ := exists_reduce hf
  rw [heq]
  exact aggregated_firstErrorOr (hreduce _)

/-- An aggregate does not tell arguments with the same items apart. -/
theorem aggregate_congr (h : flatten vs = flatten ws) : f vs = f ws := by
  obtain ⟨reduce, -, heq⟩ := exists_reduce hf
  rw [heq, heq, h]

theorem aggregate_of_flatten_eq_nil (h : flatten vs = []) : f vs = null := by
  obtain ⟨reduce, -, heq⟩ := exists_reduce hf
  rw [heq, h]
  rfl

theorem aggregate_of_error {before after : List Value} {e : Value}
    (h : flatten vs = before ++ e :: after) (hbefore : ∀ v ∈ before, v.isError = false)
    (he : e.isError = true) : f vs = e := by
  obtain ⟨reduce, -, heq⟩ := exists_reduce hf
  rw [heq]
  refine firstErrorOr_of_error (List.find?_eq_some_iff_append.2 ⟨he, before, after, h, ?_⟩)
  simpa using hbefore

end Aggregates

/-! ## Sums and averages -/

section Sums
variable {arguments : List Value}

theorem average_of_sum {x : Float} (h : sum arguments = number x) :
    average arguments = number (x / Float.ofNat (flatten arguments).length) := by
  rw [sum_eq] at h
  obtain ⟨herror, hne, hsum⟩ := firstErrorOr_eq h rfl nofun
  unfold joinOrTotal at hsum
  split at hsum
  · cases hsum
  · cases hsum
    rw [average_eq, firstErrorOr_of_ok herror hne, mean]

theorem sum_eq_text {s : String} : sum arguments = text s ↔
    (∀ v ∈ flatten arguments, v.isError = false) ∧ (∃ v ∈ flatten arguments, v.isText = true) ∧
      s = String.join ((flatten arguments).map toText) := by
  rw [sum_eq, ← firstError?_eq_none, ← List.any_eq_true]
  constructor
  · intro h
    obtain ⟨herror, -, hsum⟩ := firstErrorOr_eq h rfl nofun
    unfold joinOrTotal at hsum
    split at hsum
    · cases hsum
      exact ⟨herror, ‹_›, rfl⟩
    · cases hsum
  · rintro ⟨herror, htext, rfl⟩
    have hne : flatten arguments ≠ [] := by
      rintro hnil
      rw [hnil] at htext
      cases htext
    rw [firstErrorOr_of_ok herror hne, joinOrTotal, if_pos htext]

end Sums

/-- The aggregates agree on what they look at: the leaves of their arguments, from left to right. All of
them answer with null if there are no leaves, and with the first error if there is one. Where the sum is a
number, the average is that number over the count of the leaves. It is a text where there are no errors but
a text, and then it joins the texts of all leaves. -/
theorem aggregates_agree (arguments : List Value) :
    AreLeaves arguments (flatten arguments) ∧
    (∀ arguments', flatten arguments' = flatten arguments →
      ∀ f ∈ aggregates, f arguments' = f arguments) ∧
    (flatten arguments = [] → ∀ f ∈ aggregates, f arguments = null) ∧
    (∀ before e after, flatten arguments = before ++ e :: after → (∀ v ∈ before, v.isError = false) →
      e.isError = true → ∀ f ∈ aggregates, f arguments = e) ∧
    (∀ x, sum arguments = number x →
      average arguments = number (x / Float.ofNat (flatten arguments).length)) ∧
    ∀ s, sum arguments = text s ↔
      (∀ v ∈ flatten arguments, v.isError = false) ∧ (∃ v ∈ flatten arguments, v.isText = true) ∧
        s = String.join ((flatten arguments).map toText) :=
  ⟨areLeaves_flatten arguments, fun _ h _ hf => aggregate_congr hf h,
    fun h _ hf => aggregate_of_flatten_eq_nil hf h,
    fun _ _ _ h hbefore he _ hf => aggregate_of_error hf h hbefore he,
    fun _ => average_of_sum, fun _ => sum_eq_text⟩

/-- Null and what stands in inner collections counts, an empty collection does not. -/
theorem aggregates_of_nested :
    let numbers := [collection [number 1, collection [null, boolean true]], collection [], number 4]
    let texts := [collection [number 1, collection [text "a", null]], boolean true]
    let faults := [text "a", collection [error "x", error "y"]]
    let regrouped := [collection [text "a", error "x"], error "y"]
    average numbers = number (total (flatten numbers) / Float.ofNat 4) ∧ sum texts = text "1aTRUE" ∧
      (∀ f ∈ aggregates, f faults = error "x") ∧ (∀ f ∈ aggregates, f regrouped = f faults) ∧
      ∀ f ∈ aggregates, f [collection [collection []]] = null := by
  intro numbers texts faults regrouped
  obtain ⟨-, -, -, -, haverage, -⟩ := aggregates_agree numbers
  obtain ⟨-, -, -, -, -, htext⟩ := aggregates_agree texts
  obtain ⟨-, hregroup, -, herror, -⟩ := aggregates_agree faults
  obtain ⟨-, -, hempty, -⟩ := aggregates_agree [collection [collection []]]
  refine ⟨haverage _ rfl, (htext _).2 ?_, ?_, hregroup regrouped rfl, hempty rfl⟩
  · exact ⟨by decide, ⟨text "a", by simp [texts, flatten, leaves], rfl⟩, by decide +kernel⟩
  · exact herror [text "a"] (error "x") [error "y"] rfl (by decide) rfl

end Value

/-! ## Built-in functions -/

theorem Registry.mem_of_register {r : Registry} {fs : List Implementation} {name : String}
    {f : Implementation} (hf : f ∈ fs) (hr : ∀ other g, r.get? other = some g → g ∈ fs) :
    ∀ other g, (r.register name f).get? other = some g → g ∈ fs := by
  intro other g h
  rw [get?_register] at h
  split at h
  · cases h
    exact hf
  · exact hr other g h

theorem Registry.mem_aggregates {name : String} {f : Implementation} (h : builtin.get? name = some f) :
    f ∈ Value.aggregates := by
  have hempty : ∀ other g, empty.get? other = some g → g ∈ Value.aggregates := by
    intro other g h
    simp [empty, get?] at h
  refine mem_of_register ?_ (mem_of_register ?_ (mem_of_register ?_
    (mem_of_register ?_ hempty))) name f h
  all_goals simp [Value.aggregates]

/-- The built-in functions are aggregates. -/
theorem Registry.aggregated_builtin {name : String} {f : Implementation}
    (h : builtin.get? name = some f) (arguments : List Value) :
    Value.Aggregated (Value.flatten arguments) (f arguments) :=
  Value.aggregated_of_mem (mem_aggregates h) arguments

/-- A built-in function does not tell arguments with the same items apart. -/
theorem Registry.builtin_congr {name : String} {f : Implementation} (h : builtin.get? name = some f)
    {vs ws : List Value} (hitems : Value.flatten vs = Value.flatten ws) : f vs = f ws :=
  Value.aggregate_congr (mem_aggregates h) hitems

end CellFormula
