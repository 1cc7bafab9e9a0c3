/-!
# Formula trees

A formula is a tree of literals, references, ranges, operators and calls. Trees are compared with
`==`, which compares numbers as floats: NaN differs from itself and the two zeros agree.
-/

namespace CellFormula

/-- The operators between two operands. -/
inductive BinaryOperator where
  | add
  | subtract
  | multiply
  | divide
  | power
  deriving DecidableEq

namespace BinaryOperator

/-- The character that the operator is written with. -/
def symbol : BinaryOperator → Char
  | add => '+'
  | subtract => '-'
  | multiply => '*'
  | divide => '/'
  | power => '^'

/-- The operator that is written with this character. -/
def ofSymbol? : Char → Option BinaryOperator
  | '+' => some add
  | '-' => some subtract
  | '*' => some multiply
  | '/' => some divide
  | '^' => some power
  | _ => none

theorem ofSymbol?_symbol (op : BinaryOperator) : ofSymbol? op.symbol = some op := by
  cases op <;> rfl

theorem ofSymbol?_eq_some {c : Char} {op : BinaryOperator} (h : ofSymbol? c = some op) :
    c = op.symbol := by
  unfold ofSymbol? at h
  split at h <;> simp_all <;> subst h <;> rfl

/-- The name of the operator in outlines. -/
def name : BinaryOperator → String
  | add => "Add"
  | subtract => "Subtract"
  | multiply => "Multiply"
  | divide => "Divide"
  | power => "Power"

end BinaryOperator

/-- The signs in front of an operand. -/
inductive UnaryOperator where
  /-- Leaves a number as it is. What is neither a number nor an error is a type error here as well. -/
  | identity
  | negate
  deriving DecidableEq

namespace UnaryOperator

/-- The character that the sign is written with. -/
def symbol : UnaryOperator → Char
  | identity => '+'
  | negate => '-'

/-- The name of the sign in outlines. -/
def name : UnaryOperator → String
  | identity => "Identity"
  | negate => "Negate"

end UnaryOperator

/-- The tree of a formula. Parentheses leave no node: they show in the shape of the tree alone. -/
inductive Expr where
  | number (value : Float)
  | text (content : String)
  | reference (id : String)
  /-- The rectangle between two corner cells, in the order written. -/
  | range (first last : String)
  | unary (op : UnaryOperator) (operand : Expr)
  | binary (op : BinaryOperator) (left right : Expr)
  | call (name : String) (arguments : List Expr)

namespace Expr

/-! ## Equality -/

mutual

/-- Trees of one shape with equal parts; numbers are compared as floats. -/
def beq : Expr → Expr → Bool
  | number x, number y => x == y
  | text s, text t => s == t
  | reference a, reference b => a == b
  | range a b, range c d => a == c && b == d
  | unary o a, unary p b => o == p && beq a b
  | binary o a b, binary p c d => o == p && beq a c && beq b d
  | call f as, call g bs => f == g && beqList as bs
  | _, _ => false

/-- Lists of one length with equal trees. -/
def beqList : List Expr → List Expr → Bool
  | [], [] => true
  | a :: as, b :: bs => beq a b && beqList as bs
  | _, _ => false

end

instance : BEq Expr := ⟨beq⟩

/-! ## References -/

mutual

/-- The ids named in the tree, from left to right; a range names its two corners. -/
def references : Expr → List String
  | number _ | text _ => []
  | reference id => [id]
  | range first last => [first, last]
  | unary _ a => references a
  | binary _ a b => references a ++ references b
  | call _ as => referencesList as

/-- The ids named in the arguments, from left to right. -/
def referencesList : List Expr → List String
  | [] => []
  | a :: as => references a ++ referencesList as

end

end Expr

end CellFormula
