import CellFormula.Cell.Range
import CellFormula.Registry
import CellFormula.Value.Operator
/-!
# Evaluation

`Expr.eval` evaluates a tree with a way to fetch the value of an id. `Value.resolve` reads through
a stored value: a formula is evaluated in its own context every time, and a collection item by item.
Evaluation records each look-up, also when it fails.
-/

namespace CellFormula

/-- A computation that can fail and records look-ups, the latest first. -/
abbrev EvalM := ExceptT EvalError (StateM (List Lookup))

namespace Expr

mutual

/-- The value of a tree. Operands and arguments are evaluated from left to right, all of them before
the name of a function is looked up. A missing cell is NaN on its own and null in a range. -/
def eval (registry : Registry) (fetch : String → EvalM (Option Value)) : Expr → EvalM Value
  | number n => return .number n
  | text s => return .text s
  | reference id => do return (← fetch id).getD (.number Value.nan)
  | range first last => do
    let ids ← (expandRange first last : Except EvalError (List String))
    return .collection (← ids.mapM fun id => do return (← fetch id).getD .null)
  | unary op a => do return Value.applyUnary op (← eval registry fetch a)
  | binary op a b => do
    let left ← eval registry fetch a
    let right ← eval registry fetch b
    return Value.applyBinary op left right
  | call name as => do
    let values ← evalList registry fetch as
    match registry.get? name with
    | some f => return f values
    | none => throw (.invalidFunctionName name)

/-- The values of a list of arguments. -/
def evalList (registry : Registry) (fetch : String → EvalM (Option Value)) :
    List Expr → EvalM (List Value)
  | [] => return []
  | a :: as => do
    let v ← eval registry fetch a
    return v :: (← evalList registry fetch as)

end

end Expr

namespace Value

mutual

/-- The value that is read where this one is stored. -/
def resolve (registry : Registry) : Value → EvalM Value
  | formula e key answer =>
    e.eval registry fun id => do
      let log ← get
      set (⟨key, id⟩ :: log)
      resolveOption registry (answer log id)
  | collection items => do return collection (← resolveList registry items)
  | text s => return text s
  | number n => return number n
  | boolean b => return boolean b
  | null => return null
  | error message => return error message
termination_by structural v => v

/-- Resolves the values one after another, up to the first failure. -/
def resolveList (registry : Registry) : List Value → EvalM (List Value)
  | [] => return []
  | v :: vs => do
    let w ← resolve registry v
    return w :: (← resolveList registry vs)
termination_by structural vs => vs

/-- Resolves an answer of a context; a missing one looks nothing up. -/
def resolveOption (registry : Registry) : Option Value → EvalM (Option Value)
  | none => return none
  | some v => do return some (← resolve registry v)
termination_by structural v => v

end

end Value

/-- Records a look-up and reads the answer of the context. -/
def Context.fetch (registry : Registry) (ctx : Context) (id : String) : EvalM (Option Value) := do
  let log ← get
  set (⟨ctx.key, id⟩ :: log)
  Value.resolveOption registry (ctx.answer log id)

theorem Context.run_fetch (registry : Registry) (ctx : Context) (id : String) (log : List Lookup) :
    (ctx.fetch registry id).run log =
      (Value.resolveOption registry (ctx.answer log id)).run (⟨ctx.key, id⟩ :: log) := rfl

/-- The value of a tree in a context. -/
def Expr.evaluate (registry : Registry) (ctx : Context) (e : Expr) : EvalM Value :=
  e.eval registry (ctx.fetch registry)

theorem Value.resolve_ofFormula (registry : Registry) (e : Expr) (ctx : Context) :
    (Value.ofFormula e ctx).resolve registry = e.evaluate registry ctx := rfl

/-- The outcome and the look-ups in the order they were made. -/
def EvalM.outcome {α : Type} (x : EvalM α) : Except EvalError α × List Lookup :=
  let (result, log) := x.run []
  (result, log.reverse)

end CellFormula
