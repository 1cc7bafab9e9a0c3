/-!
# Sets of characters

A set is built from ranges of characters by complements and by the operators that classes in
patterns have.
-/

namespace CellFormula

/-- How two sets of a class are put together. -/
inductive SetOperator where
  | union
  | intersection
  | difference
  | symmetricDifference
  deriving DecidableEq

/-- Whether a character is in the result, by whether it is in the left and in the right set. -/
def SetOperator.apply : SetOperator → Bool → Bool → Bool
  | union, a, b => a || b
  | intersection, a, b => a && b
  | difference, a, b => a && !b
  | symmetricDifference, a, b => a != b

/-- A set of characters. -/
inductive CharSet where
  | empty
  /-- Both ends are included. -/
  | range (first last : Char)
  | complement (s : CharSet)
  | combine (op : SetOperator) (left right : CharSet)
  deriving DecidableEq

namespace CharSet

/-- Whether the character is in the set. -/
def contains : CharSet → Char → Bool
  | empty, _ => false
  | range first last, c => first ≤ c && c ≤ last
  | complement s, c => !s.contains c
  | combine op s t, c => op.apply (s.contains c) (t.contains c)

/-- The set of one character. -/
def single (c : Char) : CharSet := range c c

/-- Every character but the line feed. -/
def any : CharSet := complement (single '\n')

/-- The characters in any of the ranges, which include both their ends. -/
def ofRanges (ranges : List (Char × Char)) : CharSet :=
  ranges.foldr (fun r s => combine .union (range r.1 r.2) s) empty

end CharSet

end CellFormula
