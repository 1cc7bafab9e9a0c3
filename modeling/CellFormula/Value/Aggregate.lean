import CellFormula.Value.Coercion
/-!
# Aggregates

Each aggregate works on the flattened arguments. The first error among them is the result, and
nothing at all gives null.
-/

namespace CellFormula.Value

/-! ## Flattening -/

mutual

/-- The value itself, or the items of a collection at any depth. -/
def leaves : Value → List Value
  | collection items => flatten items
  | v => [v]

/-- The values that are no collections, at any depth, from left to right. -/
def flatten : List Value → List Value
  | [] => []
  | v :: vs => leaves v ++ flatten vs

end

/-- The first error of the list. -/
def firstError? (vs : List Value) : Option Value :=
  vs.find? isError

/-! ## Sums -/

/-- The sum of the numbers of the values, from the left; it starts at negative zero, which adding
leaves every number as it is. -/
def total (vs : List Value) : Float :=
  (vs.map toNumber).foldl (· + ·) (-0.0)

/-- Adds the numbers of the values, or joins their texts if there is a text among them. -/
def sum (arguments : List Value) : Value :=
  let vs := flatten arguments
  if vs.isEmpty then null
  else
    match firstError? vs with
    | some e => e
    | none => if vs.any isText then text (String.join (vs.map toText)) else number (total vs)

/-- The sum of the numbers over their count; null counts as zero. -/
def average (arguments : List Value) : Value :=
  let vs := flatten arguments
  if vs.isEmpty then null
  else
    match firstError? vs with
    | some e => e
    | none => number (total vs / Float.ofNat vs.length)

/-! ## Extremes -/

/-- The order of two numbers; NaN has none. -/
def numberOrder? (x y : Float) : Option Ordering :=
  if x < y then some .lt
  else if x == y then some .eq
  else if y < x then some .gt
  else none

/-- Two texts compare by their characters, other values by their numbers. -/
def order? (a b : Value) : Option Ordering :=
  match a, b with
  | text s, text t => some (compare s t)
  | a, b => numberOrder? a.toNumber b.toNumber

/-- The best of a list: from the left, a value that compares as wanted with the best so far takes
its place. -/
def extremeFrom (wanted : Ordering) (best : Value) (vs : List Value) : Value :=
  vs.foldl (fun best v => if order? v best = some wanted then v else best) best

/-- The best of the flattened arguments. The first error is the result itself, and nothing at all gives
null. -/
def extreme (wanted : Ordering) (arguments : List Value) : Value :=
  let vs := flatten arguments
  match firstError? vs, vs with
  | some e, _ => e
  | none, [] => null
  | none, v :: vs => extremeFrom wanted v vs

/-- The greatest argument: from the left, a greater value takes the place of the best so far. -/
def maximum (arguments : List Value) : Value := extreme .gt arguments

/-- The least argument: from the left, a smaller value takes the place of the best so far. -/
def minimum (arguments : List Value) : Value := extreme .lt arguments

end CellFormula.Value
