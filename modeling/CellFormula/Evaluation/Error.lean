/-!
# Failures of evaluation

Faults of operands are values; these failures alone stop an evaluation.
-/

namespace CellFormula

/-- Why an evaluation has no value. -/
inductive EvalError where
  /-- The corner of a range is no cell id. -/
  | invalidReference (id : String)
  /-- No function of this name is registered. -/
  | invalidFunctionName (name : String)
  deriving DecidableEq

/-- The error as it is shown to the user. -/
def EvalError.message : EvalError → String
  | invalidReference id => .join ["Invalid reference: ", id]
  | invalidFunctionName name => .join ["Invalid function name: ", name]

end CellFormula
