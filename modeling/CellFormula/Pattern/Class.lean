import CellFormula.Pattern.CharSet
import CellFormula.Pattern.Nested
import CellFormula.Rest
/-!
# Reading character classes

A class in brackets lists characters and ranges, and may start with `^` for its complement. Classes
can stand inside classes, names such as `[:digit:]` among them, and `&&`, `--` and `~~` combine what
stands to their left, other operators included, with the items to their right.
-/

namespace CellFormula.Pattern

/-! ## Items -/

/-- What a backslash and this character stand for; letters and digits are refused except for those
that name a control character. -/
def escaped? (c : Char) : Option Char :=
  match c with
  | 'n' => some '\n'
  | 't' => some '\t'
  | 'r' => some '\r'
  | 'f' => some '\x0c'
  | 'v' => some '\x0b'
  | 'a' => some '\x07'
  | c => if c.toNat < 128 ∧ ¬c.isAlphanum ∧ c ≠ '<' ∧ c ≠ '>' then some c else none

/-- One character of a class, plain or escaped. -/
def classChar? : (cs : List Char) → Option (Char × Shorter cs)
  | [] => none
  | '\\' :: c :: r => (escaped? c).map (·, ⟨r, by simp only [List.length_cons]; omega⟩)
  | c :: r => if c = '\\' then none else some (c, ⟨r, by simp⟩)

/-- A character or a range. A hyphen in front of a closing bracket or of another hyphen makes no
range, and a range whose ends are out of order is refused. -/
def classItem? (cs : List Char) : Option (CharSet × Shorter cs) := do
  let (first, rest) ← classChar? cs
  match _hr : rest.1 with
  | '-' :: c :: r =>
    if c = ']' ∨ c = '-' then return (.single first, rest)
    else
      let (last, rest') ← classChar? (c :: r)
      if first ≤ last then
        return (.range first last, ⟨rest'.1, by
          have h₁ := rest.2
          have h₂ := rest'.2
          rw [_hr] at h₁
          simp only [List.length_cons] at h₁ h₂
          omega⟩)
      else none
  | _ => return (.single first, rest)

/-- The classes with a name, all within the first 128 characters. -/
def namedRanges : List (String × List (Char × Char)) := [
  ("alnum", [('0', '9'), ('A', 'Z'), ('a', 'z')]),
  ("alpha", [('A', 'Z'), ('a', 'z')]),
  ("ascii", [('\x00', '\x7f')]),
  ("blank", [('\t', '\t'), (' ', ' ')]),
  ("cntrl", [('\x00', '\x1f'), ('\x7f', '\x7f')]),
  ("digit", [('0', '9')]),
  ("graph", [('!', '~')]),
  ("lower", [('a', 'z')]),
  ("print", [(' ', '~')]),
  ("punct", [('!', '/'), (':', '@'), ('[', '\x60'), ('\x7b', '~')]),
  ("space", [('\t', '\r'), (' ', ' ')]),
  ("upper", [('A', 'Z')]),
  ("word", [('0', '9'), ('A', 'Z'), ('_', '_'), ('a', 'z')]),
  ("xdigit", [('0', '9'), ('A', 'F'), ('a', 'f')])]

/-- Splits off the mark of a complement. -/
def splitNegation : (cs : List Char) → Bool × NotLonger cs
  | '^' :: r => (true, ⟨r, by simp⟩)
  | cs => (false, .all cs)

/-- The set, or the other characters if a class is negated. -/
def complementIf (negated : Bool) (s : CharSet) : CharSet :=
  if negated then .complement s else s

/-- The set of a name between colons, after its opening bracket. -/
def namedClass? (cs : List Char) : Option (CharSet × Shorter cs) :=
  match cs with
  | ':' :: r =>
    let (negated, name) := splitNegation r
    match hd : name.1.dropWhile (· ≠ ':') with
    | ':' :: ']' :: rest =>
      (namedRanges.lookup (String.ofList (name.1.takeWhile (· ≠ ':')))).map fun ranges =>
        (complementIf negated (.ofRanges ranges), ⟨rest, by
          have h₁ := name.2
          have h₂ := (List.dropWhile_sublist (l := name.1) (· ≠ ':')).length_le
          rw [hd] at h₂
          simp only [List.length_cons] at h₂ ⊢
          omega⟩)
    | _ => none
  | _ => none

/-! ## Open classes -/

/-- A class that is still open. -/
structure OpenClass where
  negated : Bool
  /-- What stands to the left of the last operator, and that operator. -/
  left : Option (Nested CharSet × SetOperator)
  /-- The items after that operator, the last one first. -/
  items : List (Nested CharSet)

namespace OpenClass

/-- Adds an item. -/
def push (c : OpenClass) (s : Nested CharSet) : OpenClass :=
  { c with items := s :: c.items }

/-- The set that has been listed so far. -/
def listed (c : OpenClass) : Nested CharSet :=
  let right := Nested.join (.combine .union) .empty c.items
  match c.left with
  | none => right
  | some (left, op) => .join (.combine op) .empty [right, left]

/-- Takes in an operator; what has been listed so far stands to its left. -/
def pushOperator (c : OpenClass) (op : SetOperator) : OpenClass :=
  { c with left := some (c.listed, op), items := [] }

/-- The set of the whole class, which nests one level deeper than its items. -/
def close (c : OpenClass) : Nested CharSet :=
  c.listed.wrap (complementIf c.negated)

end OpenClass

/-- Hyphens at the start of a class, and after none of them a closing bracket, stand for
themselves. -/
def classStart : (cs : List Char) → List Char × NotLonger cs
  | ']' :: r => ([']'], ⟨r, by simp⟩)
  | cs => (cs.takeWhile (· = '-'), ⟨cs.dropWhile (· = '-'), (List.dropWhile_sublist _).length_le⟩)

/-- Opens a class after its bracket. -/
def openClass (cs : List Char) : OpenClass × NotLonger cs :=
  let (negated, body) := splitNegation cs
  let (marks, rest) := classStart body.1
  (⟨negated, none, marks.map fun c => .flat (.single c)⟩, ⟨rest.1, Nat.le_trans rest.2 body.2⟩)

/-! ## Whole classes -/

/-- What stands inside a class: an item, an operator, a bracket that opens another class, or the
bracket that closes it. -/
inductive ClassSymbol where
  | item (s : CharSet)
  | operator (op : SetOperator)
  | opening (c : OpenClass)
  | closing

/-- The next symbol inside a class. -/
def classSymbol? (cs : List Char) : Option (ClassSymbol × Shorter cs) :=
  match cs with
  | [] => none
  | ']' :: r => some (.closing, ⟨r, by simp⟩)
  | '&' :: '&' :: r => some (.operator .intersection, ⟨r, by simp only [List.length_cons]; omega⟩)
  | '-' :: '-' :: r => some (.operator .difference, ⟨r, by simp only [List.length_cons]; omega⟩)
  | '~' :: '~' :: r =>
    some (.operator .symmetricDifference, ⟨r, by simp only [List.length_cons]; omega⟩)
  | '[' :: r =>
    match namedClass? r with
    | some (s, rest) => some (.item s, ⟨rest.1, Nat.lt_succ_of_lt rest.2⟩)
    | none =>
      let (c, rest) := openClass r
      some (.opening c, ⟨rest.1, Nat.lt_succ_of_le rest.2⟩)
  | cs => (classItem? cs).map fun (s, rest) => (.item s, rest)

/-- Takes in a symbol: the outermost class is closed, or the classes from the inside out stay open. -/
def OpenClass.take (c : OpenClass) (outer : List OpenClass) :
    ClassSymbol → Nested CharSet ⊕ OpenClass × List OpenClass
  | .item s => .inr (c.push (.flat s), outer)
  | .operator op => .inr (c.pushOperator op, outer)
  | .opening inner => .inr (inner, c :: outer)
  | .closing =>
    match outer with
    | [] => .inl c.close
    | o :: os => .inr (o.push c.close, os)

/-- Reads up to the bracket that closes the outermost of the open classes. -/
def classBody? (c : OpenClass) (outer : List OpenClass) (cs : List Char) :
    Option (Nested CharSet × Shorter cs) := do
  let (symbol, rest) ← classSymbol? cs
  match c.take outer symbol with
  | .inl s => return (s, rest)
  | .inr (c, outer) =>
    let (s, rest') ← classBody? c outer rest.1
    return (s, .trans rest rest')
termination_by cs.length
decreasing_by exact rest.2

/-- Reads a class after its opening bracket. -/
def class? (cs : List Char) : Option (Nested CharSet × Shorter cs) :=
  let (c, rest) := openClass cs
  (classBody? c [] rest.1).map fun (s, rest') => (s, ⟨rest'.1, Nat.lt_of_lt_of_le rest'.2 rest.2⟩)

end CellFormula.Pattern
