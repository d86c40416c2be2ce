import CallFolding.CommandLine

/-!
The program: runs the command line, prints what it says and ends with its exit code.
-/

set_option autoImplicit false

def main (args : List String) : IO UInt32 := do
  let outcome := CallFolding.CommandLine.run args
  IO.print outcome.output
  unless outcome.complaint.isEmpty do
    IO.eprintln ("Error: " ++ outcome.complaint)
  return outcome.exitCode
