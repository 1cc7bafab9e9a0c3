import CellFormula.CommandLine.Run
/-!
# The program

Runs the command line and exits with its code.
-/

open CellFormula

/-- Writes what the run gives to the two streams, and exits with its code. -/
def main (args : List String) : IO UInt32 := do
  let outcome := CommandLine.run args
  (← IO.getStdout).putStr outcome.stdout
  (← IO.getStderr).putStr outcome.stderr
  return UInt32.ofNat outcome.code
