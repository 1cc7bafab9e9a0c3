import CellFormula.Pattern.Parser
/-!
# Dialects

A dialect says which characters are operators, which are delimiters, and which words name
functions. The classes can be given as patterns; `standard` is the dialect of the patterns
`operatorPattern` and `delimiterPattern`.
-/

namespace CellFormula

/-- Which characters are operators and which are delimiters, and which words name functions. A
character that is both is an operator. -/
structure Dialect where
  isOperator : Char → Bool
  isDelimiter : Char → Bool
  functionNames : List String

namespace Dialect

/-- The names of the built-in functions. -/
def builtinNames : List String := ["SUM", "AVERAGE", "MAX", "MIN"]

/-- The operators and delimiters of the formula language, and the built-in functions. -/
def standard : Dialect where
  isOperator c := ['+', '-', '*', '/', '^'].contains c
  isDelimiter c := ['(', ')', ',', ':'].contains c
  functionNames := builtinNames

/-- The pattern of the standard operators. -/
def operatorPattern : String := "^[+\\-*/^]$"

/-- The pattern of the standard delimiters. -/
def delimiterPattern : String := "^[(),:]$"

/-- The dialect of two patterns, with the built-in functions; `none` if a pattern is malformed. -/
def ofPatterns? (operators delimiters : String) : Option Dialect := do
  let operators ← Pattern.read? operators
  let delimiters ← Pattern.read? delimiters
  return ⟨operators.occursIn, delimiters.occursIn, builtinNames⟩

/-- The dialect with other function names. -/
def withFunctionNames (d : Dialect) (names : List String) : Dialect :=
  { d with functionNames := names }

/-- Whether the word names a function; case matters. -/
def isFunctionName (d : Dialect) (word : String) : Bool :=
  d.functionNames.contains word

end Dialect

end CellFormula
