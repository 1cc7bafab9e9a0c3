import CellFormula.Expr.Basic
import CellFormula.Number.Layout
import CellFormula.Text.Escape
/-!
# Outlines of formulas

An outline shows a tree over several lines: each node is a head and a closing line, with its parts
between them, indented by four spaces and each followed by a comma.
-/

namespace CellFormula

namespace Outline

/-- A part of a node: indented lines, with a comma after the last. -/
def part : List String → List String
  | [] => []
  | [last] => [.join ["    ", last, ","]]
  | line :: lines => .join ["    ", line] :: part lines

/-- A head, parts and a closing line. -/
def node (head : String) (parts : List (List String)) (close : String) : List String :=
  head :: (parts.flatMap part ++ [close])

/-- A part that starts with a name. -/
def named (name : String) : List String → List String
  | [] => []
  | line :: lines => .join [name, ": ", line] :: lines

/-- A node with named fields. -/
def record (name : String) (fields : List (List String)) : List String :=
  node (.join [name, " \x7b"]) fields "\x7d"

/-- A node with parts in parentheses. -/
def tuple (name : String) (parts : List (List String)) : List String :=
  node (.join [name, "("]) parts ")"

end Outline

namespace Expr

open Outline

/-- A reference as a record. -/
def referenceOutline (id : String) : List String :=
  record "CellReference" [named "id" [Text.escape id]]

mutual

/-- The lines of a tree's outline. -/
def outline : Expr → List String
  | number n => tuple "Number" [[String.ofList (Number.outlineStyle.write n)]]
  | text s => tuple "String" [[Text.escape s]]
  | reference id => tuple "Reference" [referenceOutline id]
  | range first last =>
    tuple "RangeRef" [record "RangeReference"
      [named "start" (referenceOutline first), named "end" (referenceOutline last)]]
  | unary op a => record "Unary" [named "op" [op.name], named "operand" (outline a)]
  | binary op a b =>
    record "Binary" [named "op" [op.name], named "left" (outline a), named "right" (outline b)]
  | call name [] => record "Function" [named "name" [Text.escape name], ["args: []"]]
  | call name (a :: as) =>
    record "Function" [named "name" [Text.escape name],
      node "args: [" (outline a :: outlines as) "]"]

/-- The lines of each argument. -/
def outlines : List Expr → List (List String)
  | [] => []
  | a :: as => outline a :: outlines as

end

end Expr

end CellFormula
