import CellFormula.Expr.Basic
import CellFormula.Number.Layout
import CellFormula.Text.Quoted
/-!
# Printing formulas

`Expr.print` writes a tree as a formula text. Every binary operation stands in parentheses, so no
precedence is needed to read it back, and an identity sign leaves no trace.
-/

namespace CellFormula.Expr

mutual

/-- The characters of a formula. -/
def printChars : Expr → List Char
  | number n => (Number.formatNumber n).toList
  | text s => Text.Quoted.write s.toList
  | reference id => id.toList
  | range first last => first.toList ++ ':' :: last.toList
  | unary .identity a => printChars a
  | unary .negate a => '-' :: printChars a
  | binary op a b =>
    '(' :: (printChars a ++ ' ' :: op.symbol :: ' ' :: (printChars b ++ [')']))
  | call name as => name.toList ++ '(' :: (printArguments as ++ [')'])

/-- The arguments of a call, separated by a comma and a space. -/
def printArguments : List Expr → List Char
  | [] => []
  | a :: as => printChars a ++ printFurther as

/-- The arguments behind the first, each behind a comma and a space. -/
def printFurther : List Expr → List Char
  | [] => []
  | a :: as => ',' :: ' ' :: (printChars a ++ printFurther as)

end

/-- The text of a formula. -/
def print (e : Expr) : String :=
  String.ofList e.printChars

end CellFormula.Expr
