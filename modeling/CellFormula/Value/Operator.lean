import CellFormula.Value.Coercion
/-!
# Operators on values

An error among the operands is the result, the left one before the right one. Other faults become
type errors.
-/

namespace CellFormula.Value

/-- The error for an operand of the wrong kind. -/
def typeError (message : String) : Value :=
  error (.join ["TypeError: ", message])

/-- The sign applied to a number. An error is the result itself, and any other value is a type error.
-/
def applyUnary (op : UnaryOperator) : Value → Value
  | error message => error message
  | number n =>
    match op with
    | .identity => number n
    | .negate => number (-n)
  | v => typeError (.join ["unary '", op.symbol.toString, "' expects a number, got ", v.typeName])

/-- The operator on operands that are neither errors nor collections; a text among the operands of
`+` makes it a concatenation. -/
def applyScalar (op : BinaryOperator) (a b : Value) : Value :=
  match op with
  | .add =>
    if a.isText || b.isText then text (a.toText ++ b.toText) else number (a.toNumber + b.toNumber)
  | .subtract => number (a.toNumber - b.toNumber)
  | .multiply => number (a.toNumber * b.toNumber)
  | .divide => number (a.toNumber / b.toNumber)
  | .power => number (a.toNumber ^ b.toNumber)

/-- The operator on any two values. The first error of the two is the result itself, and a collection
is a type error. -/
def applyBinary (op : BinaryOperator) (a b : Value) : Value :=
  if a.isError then a
  else if b.isError then b
  else if a.isCollection || b.isCollection then
    typeError (.join ["operator '", op.symbol.toString, "' expects scalar operands, got ",
      a.typeName, " and ", b.typeName])
  else applyScalar op a b

end CellFormula.Value
