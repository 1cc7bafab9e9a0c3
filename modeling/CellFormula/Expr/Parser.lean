import CellFormula.Expr.Basic
import CellFormula.Expr.Error
import CellFormula.Rest
import CellFormula.Token.Stream
/-!
# Parsing formulas

Formulas have three levels of binary operators, and a chain of operators of one level is folded to
the left:

    Expr      := Product (('+' | '-') Product)*
    Product   := Power (('*' | '/') Power)*
    Power     := Unary ('^' Unary)*
    Unary     := '-' Atom | Atom
    Atom      := '(' Expr ')' | FUNCTION '(' Arguments? ')' | NUMBER | TEXT | REFERENCE
    Arguments := Expr ((',' | ':') Expr)*

A `:` merges the reference in front of it and the one behind it into one range argument. The parser
reads tokens from the left and meets a lexical error only where it needs the token in its place.
-/

namespace CellFormula

/-! ## Levels -/

/-- The levels of binary operators, from the loosest to the tightest. -/
inductive Level where
  | sum
  | product
  | power
  deriving DecidableEq

/-- The level that the operator belongs to. -/
def BinaryOperator.level : BinaryOperator → Level
  | add | subtract => .sum
  | multiply | divide => .product
  | power => .power

/-- The operator of this level that a token stands for. -/
def Level.operator? (level : Level) : TokenKind → Option BinaryOperator
  | .operator c => (BinaryOperator.ofSymbol? c).filter (·.level = level)
  | _ => none

/-- How tight the level binds, counted from the tightest. -/
def Level.height : Level → Nat
  | sum => 3
  | product => 2
  | power => 1

theorem Level.height_le (level : Level) : level.height ≤ 3 := by
  cases level <;> decide

namespace Expr

/-! ## Expressions -/

/-- The token in front: the first of the list, or what the text ends with. -/
def leading (ending : Except LexicalError Nat) : List Token → Except ParseError Token
  | t :: _ => .ok t
  | [] =>
    match ending with
    | .ok p => .ok ⟨.endOfInput, p⟩
    | .error e => .error (.lexical e)

/-- Takes off the parenthesis that closes the one at `opened`. -/
def readClosing (opened : Nat) : (ts : List Token) → Except ParseError (Shorter ts)
  | ⟨.delimiter ')', _⟩ :: ts => .ok ⟨ts, by simp⟩
  | _ => .error (.unclosedParenthesis opened)

mutual

/-- Operands of a level joined by its operators. -/
def parseChain (ending : Except LexicalError Nat) (level : Level) (ts : List Token) :
    Except ParseError (Expr × Shorter ts) := do
  let (first, rest) ← parseOperand ending level ts
  let (e, rest') ← parseLinks ending level first rest.1
  return (e, ⟨rest'.1, Nat.lt_of_le_of_lt rest'.2 rest.2⟩)
termination_by 9 * ts.length + 2 * level.height + 1
decreasing_by
  · omega
  · have := rest.2
    omega

/-- The operators of a level and their right operands, folded onto what stands to their left. -/
def parseLinks (ending : Except LexicalError Nat) (level : Level) (left : Expr) (ts : List Token) :
    Except ParseError (Expr × NotLonger ts) :=
  match ts with
  | [] => do
    let _ ← leading ending []
    return (left, ⟨[], Nat.le_refl _⟩)
  | t :: ts' =>
    match level.operator? t.kind with
    | none => return (left, ⟨t :: ts', Nat.le_refl _⟩)
    | some op => do
      let (right, rest) ← parseOperand ending level ts'
      let (e, rest') ← parseLinks ending level (.binary op left right) rest.1
      return (e, ⟨rest'.1, by
        have h₁ := rest.2
        have h₂ := rest'.2
        simp only [List.length_cons]
        omega⟩)
termination_by 9 * ts.length
decreasing_by
  · have := level.height_le
    simp only [List.length_cons]
    omega
  · have := rest.2
    simp only [List.length_cons]
    omega

/-- An operand of a level: a chain of the next tighter level, or a unary term. -/
def parseOperand (ending : Except LexicalError Nat) (level : Level) (ts : List Token) :
    Except ParseError (Expr × Shorter ts) :=
  match level with
  | .sum => parseChain ending .product ts
  | .product => parseChain ending .power ts
  | .power => parseUnary ending ts
termination_by 9 * ts.length + 2 * level.height
decreasing_by all_goals simp only [Level.height]; omega

/-- An atom, or one minus sign and an atom. -/
def parseUnary (ending : Except LexicalError Nat) (ts : List Token) :
    Except ParseError (Expr × Shorter ts) :=
  match ts with
  | ⟨.operator '-', _⟩ :: ts' => do
    let (e, rest) ← parseAtom ending ts'
    return (.unary .negate e, ⟨rest.1, Nat.lt_succ_of_lt rest.2⟩)
  | ts => parseAtom ending ts
termination_by 9 * ts.length + 1
decreasing_by
  · simp only [List.length_cons]
    omega
  · omega

/-- A literal, a reference, an expression in parentheses or a call. -/
def parseAtom (ending : Except LexicalError Nat) (ts : List Token) :
    Except ParseError (Expr × Shorter ts) :=
  match ts with
  | ⟨.number n, _⟩ :: ts' => return (.number n, ⟨ts', by simp⟩)
  | ⟨.text s, _⟩ :: ts' => return (.text s, ⟨ts', by simp⟩)
  | ⟨.reference id, _⟩ :: ts' => return (.reference id, ⟨ts', by simp⟩)
  | ⟨.delimiter '(', opened⟩ :: ts' => do
    let (e, rest) ← parseChain ending .sum ts'
    let rest' ← readClosing opened rest.1
    return (e, ⟨rest'.1, Nat.lt_succ_of_lt (Nat.lt_trans rest'.2 rest.2)⟩)
  | ⟨.function name, _⟩ :: ⟨.delimiter '(', opened⟩ :: ts' => do
    let (as, rest) ← parseArguments ending opened ts'
    return (.call name as, ⟨rest.1, Nat.lt_succ_of_lt (Nat.lt_succ_of_lt rest.2)⟩)
  | ⟨.function name, _⟩ :: ts' => do
    let t ← leading ending ts'
    throw (.missingParenthesis t.position name)
  | ts => do
    let t ← leading ending ts
    throw (.invalidExpression t.position t.kind.describe)
termination_by 9 * ts.length
decreasing_by all_goals simp only [List.length_cons, Level.height]; omega

/-- The arguments of a call up to its closing parenthesis; the opening one has been read. -/
def parseArguments (ending : Except LexicalError Nat) (opened : Nat) (ts : List Token) :
    Except ParseError (List Expr × Shorter ts) :=
  match ts with
  | ⟨.delimiter ')', _⟩ :: ts' => return ([], ⟨ts', by simp⟩)
  | ts => do
    let (first, rest) ← parseChain ending .sum ts
    let (as, rest') ← parseFurther ending opened first rest.1
    return (as, ⟨rest'.1, Nat.lt_trans rest'.2 rest.2⟩)
termination_by 9 * ts.length + 8
decreasing_by
  · simp only [Level.height]
    omega
  · have := rest.2
    omega

/-- The arguments from `last` on, which has been read and may turn out to start a range. -/
def parseFurther (ending : Except LexicalError Nat) (opened : Nat) (last : Expr) (ts : List Token) :
    Except ParseError (List Expr × Shorter ts) :=
  match ts with
  | ⟨.delimiter ')', _⟩ :: ts' => return ([last], ⟨ts', by simp⟩)
  | ⟨.delimiter ',', _⟩ :: ts' => do
    let (e, rest) ← parseChain ending .sum ts'
    let (as, rest') ← parseFurther ending opened e rest.1
    return (last :: as, ⟨rest'.1, by
      have h₁ := rest.2
      have h₂ := rest'.2
      simp only [List.length_cons]
      omega⟩)
  | ⟨.delimiter ':', separator⟩ :: ts' => do
    let (e, rest) ← parseChain ending .sum ts'
    match last, e with
    | .reference a, .reference b =>
      let (as, rest') ← parseFurther ending opened (.range a b) rest.1
      return (as, ⟨rest'.1, by
        have h₁ := rest.2
        have h₂ := rest'.2
        simp only [List.length_cons]
        omega⟩)
    | _, _ => throw (.invalidRange separator)
  | _ => throw (.unclosedParenthesis opened)
termination_by 9 * ts.length
decreasing_by all_goals simp only [List.length_cons, Level.height]; omega

end

/-! ## Whole formulas -/

/-- The tree of a run of tokens: one expression and nothing behind it. -/
def ofTokens (run : TokenRun) : Except ParseError Expr := do
  let (e, rest) ← parseChain run.ending .sum run.tokens
  let t ← leading run.ending rest.1
  if t.isEnd then return e else throw (.invalidExpression t.position t.kind.describe)

/-- The tree of a formula text. -/
def parse (d : Dialect) (text : String) : Except ParseError Expr :=
  ofTokens (scanAll d (.start text))

end Expr

end CellFormula
