import Mathlib.Data.List.Forall2
import Mathlib.Data.List.TakeWhile
/-!
# Lists

What the proofs need of lists in general: where a test stops holding, where a map that may fail fails
first, and what stands at the end of two related lists.
-/

namespace CellFormula

/-! ## A front that passes a test -/

theorem span_append {α : Type} {p : α → Bool} {front rest : List α} (hfront : ∀ a ∈ front, p a = true)
    (hrest : ∀ a ∈ rest.head?, p a = false) :
    (front ++ rest).takeWhile p = front ∧ (front ++ rest).dropWhile p = rest := by
  rw [List.takeWhile_append_of_pos hfront, List.dropWhile_append_of_pos hfront]
  cases rest with
  | nil => simp
  | cons a as => simp [hrest a rfl]

/-! ## Maps with effects -/

theorem mapM_congr {m : Type → Type} [Monad m] [LawfulMonad m] {α β : Type} {f g : α → m β}
    {as : List α} (h : ∀ a ∈ as, f a = g a) : as.mapM f = as.mapM g := by
  induction as with
  | nil => rfl
  | cons a as ih =>
    obtain ⟨ha, has⟩ := List.forall_mem_cons.1 h
    rw [List.mapM_cons, List.mapM_cons, ha, ih has]

/-! ## Maps that may fail -/

section Failing
variable {α β ε : Type} {f : α → Except ε β} {fails : α → ε → Prop} {a : α} {as : List α} {x : ε}

theorem mapM_cons_ok {b : β} (h : f a = .ok b) : (a :: as).mapM f = (as.mapM f).map (b :: ·) := by
  rw [List.mapM_cons, h]
  cases as.mapM f <;> rfl

theorem mapM_cons_error (h : f a = .error x) : (a :: as).mapM f = .error x := by
  rw [List.mapM_cons, h]
  rfl

theorem forall₂_of_mapM {bs : List β} (h : as.mapM f = .ok bs) :
    List.Forall₂ (fun a b => f a = .ok b) as bs := by
  induction as generalizing bs with
  | nil =>
    cases h
    exact .nil
  | cons a as ih =>
    cases ha : f a with
    | error x =>
      rw [mapM_cons_error ha] at h
      cases h
    | ok b =>
      rw [mapM_cons_ok ha] at h
      cases has : as.mapM f with
      | error x =>
        rw [has] at h
        cases h
      | ok bs =>
        rw [has] at h
        cases h
        exact .cons ha (ih has)

/-- The first element that fails does so with this error. -/
def FirstFails (fails : α → ε → Prop) (as : List α) (x : ε) : Prop :=
  ∃ before a after, as = before ++ a :: after ∧ (∀ b ∈ before, ∀ y, ¬fails b y) ∧ fails a x

theorem firstFails_cons :
    FirstFails fails (a :: as) x ↔ fails a x ∨ (∀ y, ¬fails a y) ∧ FirstFails fails as x := by
  constructor
  · rintro ⟨before, b, after, has, hbefore, hb⟩
    cases before with
    | nil =>
      cases has
      exact .inl hb
    | cons c before =>
      cases has
      obtain ⟨hc, hbefore⟩ := List.forall_mem_cons.1 hbefore
      exact .inr ⟨hc, before, b, after, rfl, hbefore, hb⟩
  · rintro (ha | ⟨ha, before, b, after, rfl, hbefore, hb⟩)
    · exact ⟨[], a, as, rfl, nofun, ha⟩
    · exact ⟨a :: before, b, after, rfl, List.forall_mem_cons.2 ⟨ha, hbefore⟩, hb⟩

/-- Some element fails first if any fails. -/
theorem exists_firstFails : (∃ x, FirstFails fails as x) ↔ ∃ a ∈ as, ∃ x, fails a x := by
  induction as with
  | nil => simp [FirstFails]
  | cons a as ih =>
    simp only [firstFails_cons, List.exists_mem_cons_iff]
    by_cases ha : ∃ x, fails a x
    · exact ⟨fun _ => .inl ha, fun _ => ha.imp fun _ hx => .inl hx⟩
    · have hno : ∀ x, ¬fails a x := not_exists.1 ha
      simp [hno, ih]

theorem mapM_eq_error : as.mapM f = .error x ↔ FirstFails (fun a y => f a = .error y) as x := by
  induction as with
  | nil => simp [FirstFails, pure, Except.pure]
  | cons a as ih =>
    rw [firstFails_cons, ← ih]
    cases ha : f a with
    | error y => simp [mapM_cons_error ha]
    | ok b =>
      rw [mapM_cons_ok ha]
      cases as.mapM f <;> simp [Except.map]

end Failing

/-! ## Related lists -/

section Related
variable {α β : Type} {R : α → β → Prop}

theorem rel_getLast? {as : List α} {bs : List β} (h : List.Forall₂ R as bs) :
    Option.Rel R as.getLast? bs.getLast? := by
  rw [List.getLast?_eq_head?_reverse, List.getLast?_eq_head?_reverse]
  have hreverse := List.rel_reverse h
  revert hreverse
  generalize as.reverse = as'
  generalize bs.reverse = bs'
  intro hreverse
  cases hreverse with
  | nil => exact .none
  | cons hlast _ => exact .some hlast

theorem rel_some_left {a : α} {o : Option β} (h : Option.Rel R (some a) o) :
    ∃ b, o = some b ∧ R a b := by
  cases h with
  | some hab => exact ⟨_, rfl, hab⟩

theorem rel_some_right {b : β} {o : Option α} (h : Option.Rel R o (some b)) :
    ∃ a, o = some a ∧ R a b := by
  cases h with
  | some hab => exact ⟨_, rfl, hab⟩

theorem rel_none_left {o : Option β} (h : Option.Rel R none o) : o = none := by
  cases h
  rfl

end Related

end CellFormula
