import CellFormula.Expr.Basic
/-!
# Values

Cells hold values, and formulas evaluate to them. A formula value is a tree with the context that
its references are looked up in. A context is a key, which tells contexts apart, and its answers;
an answer may depend on the look-ups made so far, in whatever context.
-/

namespace CellFormula

/-- A look-up of an id in the context with this key. -/
structure Lookup where
  context : Nat
  id : String
  deriving DecidableEq

/-- What a cell holds and what a formula evaluates to. -/
inductive Value where
  | text (content : String)
  | number (value : Float)
  | boolean (value : Bool)
  | null
  /-- A fault of an operand, carried as a value. -/
  | error (message : String)
  | collection (items : List Value)
  /-- A formula that is not evaluated yet, and the key and answers of its context. -/
  | formula (expr : Expr) (context : Nat) (answer : List Lookup → String → Option Value)

/-- What references are looked up in. The look-ups made so far come latest first. -/
structure Context where
  key : Nat
  answer : List Lookup → String → Option Value

namespace Value

/-- The tree as a value to be evaluated in a context. -/
def ofFormula (e : Expr) (ctx : Context) : Value :=
  formula e ctx.key ctx.answer

/-- Whether the value is an error itself; a collection with errors in it is none. -/
def isError : Value → Bool
  | error _ => true
  | _ => false

/-- Whether the value is a collection. -/
def isCollection : Value → Bool
  | collection _ => true
  | _ => false

/-- Whether the value is a text. -/
def isText : Value → Bool
  | text _ => true
  | _ => false

/-- The name of the kind of value in messages. -/
def typeName : Value → String
  | text _ => "string"
  | number _ => "number"
  | boolean _ => "boolean"
  | null => "null"
  | error _ => "error"
  | collection _ => "collection"
  | formula .. => "formula"

/-! ## Equality -/

mutual

/-- Numbers are compared as floats; formulas are equal if their trees are and they share a
context. -/
def beq : Value → Value → Bool
  | text s, text t => s == t
  | number x, number y => x == y
  | boolean a, boolean b => a == b
  | null, null => true
  | error s, error t => s == t
  | collection as, collection bs => beqList as bs
  | formula a k _, formula b l _ => a == b && k == l
  | _, _ => false

/-- Lists of one length with equal values. -/
def beqList : List Value → List Value → Bool
  | [], [] => true
  | a :: as, b :: bs => beq a b && beqList as bs
  | _, _ => false

end

instance : BEq Value := ⟨beq⟩

end Value

end CellFormula
