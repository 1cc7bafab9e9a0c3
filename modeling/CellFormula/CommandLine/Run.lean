import CellFormula.CommandLine.Arguments
import CellFormula.CommandLine.Cells
import CellFormula.Evaluation.Basic
import CellFormula.Expr.Outline
/-!
# Running a command line

A run gives an exit code and what is written to the two output streams. The code is 0 on success, 1
if the formula fails and 2 if the arguments make no command.
-/

namespace CellFormula.CommandLine

/-- The exit code of a run, and what it writes to the two output streams. -/
structure Outcome where
  code : Nat
  stdout : String
  stderr : String
  deriving DecidableEq

/-- A run that prints a text and succeeds. -/
def Outcome.success (stdout : String) : Outcome := ⟨0, stdout, ""⟩

/-- A run that fails after it has printed a text. The failure is reported on the error stream. -/
def Outcome.failure (stdout : String) (f : Failure) : Outcome := ⟨1, stdout, f.report⟩

/-! ## Commands -/

/-- A line of the token listing, with the position flushed right in four columns. -/
def tokenLine (t : Token) : String :=
  let position := Nat.repr t.position
  .join [.ofList (List.replicate (4 - position.length) ' '), position, "  ", t.kind.describe, "\n"]

/-- Lists the tokens, also those in front of an error. -/
def listTokens (d : Dialect) (formula : String) : Outcome :=
  let run := scanAll d (.start formula)
  let lines := String.join (run.tokens.map tokenLine)
  match run.ending with
  | .ok p => .success (lines ++ tokenLine ⟨.endOfInput, p⟩)
  | .error e => .failure lines ⟨.join ["Failed to tokenize '", formula, "'"], some e.message⟩

/-- The tree of the formula; a failure quotes the formula. -/
def parseFormula (d : Dialect) (formula : String) : Except Failure Expr :=
  (Expr.parse d formula).mapError fun e =>
    ⟨.join ["Failed to parse '", formula, "'"], some e.message⟩

/-- The formula printed back, or the outline of its tree. -/
def printFormula (d : Dialect) (tree : Bool) (formula : String) : Except Failure String := do
  let e ← parseFormula d formula
  return if tree then .join (e.outline.map (.push · '\n')) else e.print.push '\n'

/-- The value of the formula. The formula is read before the cells are. -/
def evalFormula (d : Dialect) (cellArgs : List String) (formula : String) :
    Except Failure String := do
  let e ← parseFormula d formula
  let cells ← buildCells d 1 cellArgs
  match (e.evaluate .builtin (cells.context 0)).outcome.1 with
  | .ok v => return v.display.push '\n'
  | .error err => throw ⟨.join ["Failed to evaluate '", formula, "'"], some err.message⟩

/-- Runs a command in the dialect of its patterns. -/
def Invocation.run (i : Invocation) : Outcome :=
  match Dialect.ofPatterns? i.operators i.delimiters with
  | none => .failure "" ⟨"Failed to compile lexer options", none⟩
  | some d =>
    let printed : Except Failure String → Outcome
      | .ok text => .success text
      | .error f => .failure "" f
    match i.command with
    | .tokens => listTokens d i.formula
    | .parse => printed (printFormula d i.tree i.formula)
    | .eval => printed (evalFormula d i.cells i.formula)

/-! ## Whole runs -/

/-- The help text. -/
def usage : String := .join [
  "Tokenize, parse and evaluate spreadsheet formulas\n\n",
  "Usage: gridcalc [OPTIONS] tokens FORMULA\n",
  "       gridcalc [OPTIONS] parse [-t] FORMULA\n",
  "       gridcalc [OPTIONS] eval [-c ID=VALUE]... FORMULA\n\n",
  "Options:\n",
  "      --operators PATTERN   what a single operator character matches\n",
  "      --delimiters PATTERN  what a single delimiter character matches\n",
  "  -t, --tree                print the syntax tree\n",
  "  -c, --cell ID=VALUE       give a cell a value, again for every cell\n",
  "  -h, --help                print help\n",
  "  -V, --version             print the version\n"]

/-- Runs a command line. -/
def run (args : List String) : Outcome :=
  match readArguments args with
  | .ok invocation => invocation.run
  | .error .help => .success usage
  | .error .version => .success "gridcalc 0.1.0\n"
  | .error .usage => ⟨2, "", usage⟩

end CellFormula.CommandLine
