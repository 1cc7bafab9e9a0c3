/-!
# Nesting

Patterns can be nested up to a limit. A part of a pattern is read together with the number of levels
nested in it: classes, groups, repetitions, and parts that stand side by side each make a level.
-/

namespace CellFormula.Pattern

/-- What a part of a pattern stands for, and the number of levels nested in it. -/
structure Nested (α : Type) where
  content : α
  depth : Nat

/-- How many levels a pattern may have. -/
def depthLimit : Nat := 250

namespace Nested

/-- A part with nothing nested in it. -/
def flat {α : Type} (a : α) : Nested α := ⟨a, 0⟩

/-- A level around a part. -/
def wrap {α : Type} (f : α → α) (x : Nested α) : Nested α := ⟨f x.content, x.depth + 1⟩

/-- Joins parts, the last of which comes first. Several parts make a level; one stands for itself. -/
def join {α : Type} (f : α → α → α) (nothing : α) : List (Nested α) → Nested α
  | [] => flat nothing
  | [x] => x
  | x :: xs =>
    (xs.foldl (fun y x => ⟨f x.content y.content, max x.depth y.depth⟩) x).wrap id

end Nested

end CellFormula.Pattern
