import SetScaler.CommandLine.Outcome

/-!
The scaler as a program: reads files, prints, and exits.
-/

open SetScaler

def readText (path : String) : IO (Option String) := do
  try
    return some (← IO.FS.readFile path)
  catch _ =>
    return none

def main (words : List String) : IO UInt32 := do
  let outcome ← CommandLine.perform readText (← IO.getEnv "HOME") words
  IO.print outcome.output
  IO.eprint outcome.errors
  return outcome.exitCode
