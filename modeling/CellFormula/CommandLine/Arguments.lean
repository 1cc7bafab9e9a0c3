import CellFormula.Dialect
/-!
# Command line arguments

    tokens FORMULA
    parse [-t|--tree] FORMULA
    eval [-c|--cell ID=VALUE]... FORMULA

The options `--operators` and `--delimiters` take a pattern and may stand in front of the command or
behind it; behind it they win. Values and formulas cannot start with a hyphen, except in `-` alone
and after `--`.
-/

namespace CellFormula.CommandLine

/-- What is done with the formula. -/
inductive Command where
  /-- Print the tokens. -/
  | tokens
  /-- Print the formula back, or its tree. -/
  | parse
  /-- Evaluate with given cells. -/
  | eval
  deriving DecidableEq

/-- The command of this name. -/
def Command.ofName? : String → Option Command
  | "tokens" => some .tokens
  | "parse" => some .parse
  | "eval" => some .eval
  | _ => none

/-- The options that take a value. -/
inductive ValueOption where
  | operators
  | delimiters
  | cell
  deriving DecidableEq

/-- What has been read in front of a command or behind it. Cells come latest first. -/
structure Given where
  operators : Option String
  delimiters : Option String
  tree : Bool
  cells : List String
  formula : Option String
  deriving DecidableEq

/-- Nothing has been read yet. -/
def Given.nothing : Given := ⟨none, none, false, [], none⟩

/-- Why no command is run. -/
inductive Stop where
  | help
  | version
  | usage
  deriving DecidableEq

/-! ## Options -/

/-- Gives an option its value; only cells can be given more than once. -/
def Given.set (g : Given) (opt : ValueOption) (value : String) : Except Stop Given :=
  match opt with
  | .operators => if g.operators.isSome then .error .usage else .ok { g with operators := value }
  | .delimiters =>
    if g.delimiters.isSome then .error .usage else .ok { g with delimiters := value }
  | .cell => .ok { g with cells := value :: g.cells }

/-- Asks for the tree, at most once. -/
def Given.setTree (g : Given) : Except Stop Given :=
  if g.tree then .error .usage else .ok { g with tree := true }

/-- Gives the formula, of which there is only one. -/
def Given.setFormula (g : Given) (formula : String) : Except Stop Given :=
  if g.formula.isSome then .error .usage else .ok { g with formula := formula }

/-- Options read so far, and the one that waits for its value in the next argument. -/
abbrev Progress := Given × Option ValueOption

/-- The option that a long name stands for, in front of a command if there is none. -/
def longOption? (command : Option Command) (name : String) : Option ValueOption :=
  if name = "operators" then some .operators
  else if name = "delimiters" then some .delimiters
  else if name = "cell" ∧ command = some .eval then some .cell
  else none

/-- Reads an argument after its two hyphens: a name, and a value after an equals sign. -/
def readLong (command : Option Command) (g : Given) (arg : List Char) : Except Stop Progress :=
  let name := String.ofList (arg.takeWhile (· ≠ '='))
  match longOption? command name, arg.dropWhile (· ≠ '=') with
  | some opt, [] => .ok (g, some opt)
  | some opt, _ :: value => do return (← g.set opt (String.ofList value), none)
  | none, _ :: _ => .error .usage
  | none, [] =>
    if name = "help" then .error .help
    else if name = "version" ∧ command = none then .error .version
    else if name = "tree" ∧ command = some .parse then do return (← g.setTree, none)
    else .error .usage

/-- Reads an argument after its one hyphen: a run of letters, of which `c` takes what follows it, an
equals sign apart, as its value. -/
def readShort (command : Option Command) (g : Given) : List Char → Except Stop Progress
  | [] => .ok (g, none)
  | 'h' :: _ => .error .help
  | 'V' :: _ => .error (if command = none then .version else .usage)
  | 't' :: r =>
    if command = some .parse then do readShort command (← g.setTree) r else .error .usage
  | 'c' :: r =>
    if command = some .eval then
      match r with
      | [] => .ok (g, some .cell)
      | '=' :: value => do return (← g.set .cell (String.ofList value), none)
      | value => do return (← g.set .cell (String.ofList value), none)
    else .error .usage
  | _ :: _ => .error .usage

/-! ## Whole lines -/

/-- Whether an argument can only be an option. -/
def looksLikeOption (arg : String) : Bool :=
  match arg.toList with
  | '-' :: _ :: _ => true
  | _ => false

/-- Reads one argument that is an option, or the value that an option waits for; `none` if it is
neither. -/
def readOption (command : Option Command) (progress : Progress) (arg : String) :
    Except Stop (Option Progress) :=
  match progress with
  | (g, some opt) =>
    if looksLikeOption arg then .error .usage else do return some (← g.set opt arg, none)
  | (g, none) =>
    if looksLikeOption arg then
      match arg.toList with
      | '-' :: '-' :: name => do return some (← readLong command g name)
      | '-' :: letters => do return some (← readShort command g letters)
      | _ => .ok none
    else .ok none

/-- Reads the arguments behind a command. After `--` there are no options. -/
def readBehind (command : Command) (progress : Progress) : List String → Except Stop Given
  | [] => if progress.2.isSome then .error .usage else .ok progress.1
  | arg :: args =>
    if arg = "--" ∧ progress.2 = none then args.foldlM Given.setFormula progress.1
    else do
      match ← readOption (some command) progress arg with
      | some progress => readBehind command progress args
      | none => readBehind command (← progress.1.setFormula arg, none) args

/-- What is run: a command on a formula, in a dialect given by patterns. -/
structure Invocation where
  operators : String
  delimiters : String
  command : Command
  tree : Bool
  cells : List String
  formula : String
  deriving DecidableEq

/-- Joins what was given in front of a command and behind it. -/
def Invocation.make (command : Command) (front behind : Given) : Except Stop Invocation :=
  match behind.formula with
  | none => .error .usage
  | some formula => .ok {
      operators := (behind.operators <|> front.operators).getD Dialect.operatorPattern
      delimiters := (behind.delimiters <|> front.delimiters).getD Dialect.delimiterPattern
      command, tree := behind.tree, cells := behind.cells.reverse, formula }

/-- Whether the words behind `help` name something to help with. -/
def helpTopic : List String → Bool
  | [] => true
  | [topic] => topic = "help" || (Command.ofName? topic).isSome
  | _ => false

/-- Reads the arguments in front of a command, the command and the arguments behind it. -/
def readFront (progress : Progress) : List String → Except Stop Invocation
  | [] => .error .usage
  | arg :: args =>
    if arg = "--" then .error .usage
    else do
      match ← readOption none progress arg with
      | some progress => readFront progress args
      | none =>
        match Command.ofName? arg with
        | some command => Invocation.make command progress.1 (← readBehind command (.nothing, none) args)
        | none => .error (if arg = "help" ∧ helpTopic args then .help else .usage)

/-- Reads a command line. -/
def readArguments (args : List String) : Except Stop Invocation :=
  readFront (.nothing, none) args

end CellFormula.CommandLine
