/-!
# What a reader leaves

A reader takes the front of a list and answers with the rest. The types here carry the bound on the
length of the rest that readers recurse on.
-/

namespace CellFormula

/-- What is left after a front that is not empty. -/
abbrev Shorter {α : Type} (xs : List α) := { rest : List α // rest.length < xs.length }

/-- What is left after a front that may be empty. -/
abbrev NotLonger {α : Type} (xs : List α) := { rest : List α // rest.length ≤ xs.length }

/-- What is left after nothing has been taken. -/
def NotLonger.all {α : Type} (xs : List α) : NotLonger xs :=
  ⟨xs, Nat.le_refl _⟩

/-- What is left after two fronts that are not empty. -/
def Shorter.trans {α : Type} {xs : List α} (ys : Shorter xs) (zs : Shorter ys.1) : Shorter xs :=
  ⟨zs.1, Nat.lt_trans zs.2 ys.2⟩

end CellFormula
