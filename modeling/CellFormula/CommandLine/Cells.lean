import CellFormula.Cells
import CellFormula.CommandLine.Failure
import CellFormula.Expr.Parser
import CellFormula.Value.Coercion
/-!
# Cells on the command line

A cell is given as `ID=VALUE`. A value is a formula after another equals sign, or a number, a truth
value, a quoted text, or else the text as it stands. Formulas are evaluated in a snapshot that holds
the plain cells alone, so they do not see each other.
-/

namespace CellFormula.CommandLine

/-- Splits an argument at its first equals sign into a trimmed id, which is not blank, and the raw
value. -/
def splitCell? (arg : String) : Option (String × List Char) :=
  let cs := arg.toList
  let id := Text.trimChars (cs.takeWhile (· ≠ '='))
  match cs.dropWhile (· ≠ '=') with
  | _ :: raw => if id = [] then none else some (String.ofList id, raw)
  | [] => none

/-- The text between two quotes; inside it nothing is escaped. -/
def unquote? : List Char → Option (List Char)
  | '"' :: cs => if cs.getLast? = some '"' then some cs.dropLast else none
  | _ => none

/-- The value of a plain cell. A text that is not quoted keeps its blanks. -/
def readPlain (raw : List Char) : Value :=
  let trimmed := Text.trimChars raw
  match Number.parseNumber? (String.ofList trimmed) with
  | some n => .number n
  | none =>
    if trimmed = ['T', 'R', 'U', 'E'] then .boolean true
    else if trimmed = ['F', 'A', 'L', 'S', 'E'] then .boolean false
    else
      match unquote? trimmed with
      | some content => .text (String.ofList content)
      | none => .text (String.ofList raw)

/-- What a cell is given as. -/
inductive CellSource where
  | plain (v : Value)
  | formula (e : Expr)

/-- Reads one cell argument. -/
def readCell (d : Dialect) (arg : String) : Except Failure (String × CellSource) :=
  match splitCell? arg with
  | none => .error ⟨.join ["Invalid cell '", arg, "': expected ID=VALUE"], none⟩
  | some (id, '=' :: formula) =>
    match Expr.parse d (String.ofList formula) with
    | .ok e => .ok (id, .formula e)
    | .error e => .error ⟨.join ["Failed to parse formula for cell ", id], some e.message⟩
  | some (id, raw) => .ok (id, .plain (readPlain raw))

/-- The plain cells; a later value of an id replaces an earlier one. -/
def plainCells (sources : List (String × CellSource)) : Cells :=
  sources.foldl (fun cells (id, source) =>
    match source with
    | .plain v => cells.insert id v
    | .formula _ => cells) .empty

/-- Adds the formulas, all in one context, over the plain cells. -/
def withFormulas (sources : List (String × CellSource)) (ctx : Context) (cells : Cells) : Cells :=
  sources.foldl (fun cells (id, source) =>
    match source with
    | .plain _ => cells
    | .formula e => cells.insert id (.ofFormula e ctx)) cells

/-- The cells of a list of arguments; the first argument that cannot be read is reported. The
snapshot has the given key. -/
def buildCells (d : Dialect) (key : Nat) (args : List String) : Except Failure Cells := do
  let sources ← args.mapM (readCell d)
  let plain := plainCells sources
  return withFormulas sources (plain.context key) plain

end CellFormula.CommandLine
