/-!
# Reports of failures

A failure says what could not be done, and why if there is more to say.
-/

namespace CellFormula.CommandLine

/-- What could not be done, and why if that is known. -/
structure Failure where
  context : String
  cause : Option String
  deriving DecidableEq

/-- Four spaces in front of every line. -/
def indented (text : String) : String :=
  let margin := List.replicate 4 ' '
  String.ofList (margin ++ text.toList.flatMap fun c => if c = '\n' then '\n' :: margin else [c])

/-- The report on the error stream. -/
def Failure.report (f : Failure) : String :=
  match f.cause with
  | none => .join ["Error: ", f.context, "\n"]
  | some cause => .join ["Error: ", f.context, "\n\nCaused by:\n", indented cause, "\n"]

end CellFormula.CommandLine
