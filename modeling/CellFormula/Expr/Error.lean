import CellFormula.Token.Basic
/-!
# Why a text is no formula

Each error keeps the position of the token it is about.
-/

namespace CellFormula

/-- Why a text is not read as a formula. -/
inductive ParseError where
  /-- The text cannot be cut into tokens up to the one that is needed. -/
  | lexical (error : LexicalError)
  /-- The parenthesis that opens at this position is never closed. -/
  | unclosedParenthesis (position : Nat)
  /-- The token at this position, described by `found`, cannot start or continue an expression. -/
  | invalidExpression (position : Nat) (found : String)
  /-- The `:` at this position joins something other than two references. -/
  | invalidRange (position : Nat)
  /-- The token at this position stands where the parenthesis of a call should open. -/
  | missingParenthesis (position : Nat) (name : String)
  deriving DecidableEq

/-- The error as it is shown to the user. -/
def ParseError.message : ParseError → String
  | lexical e => e.message
  | unclosedParenthesis p => .join ["Unclosed parenthesis opened at position ", Nat.repr p]
  | invalidExpression p found =>
    .join ["Invalid expression at position ", Nat.repr p, ": unexpected ", found]
  | invalidRange p =>
    .join ["Invalid range at position ", Nat.repr p, ": both sides of ':' must be references"]
  | missingParenthesis p name =>
    .join ["Missing '(' after function ", name, " at position ", Nat.repr p]

end CellFormula
