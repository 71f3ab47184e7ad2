import Bezout.Command

/-!
The command line program: it runs the command that its arguments name, writes the profile if one is
wanted, and ends with the status of the run.
-/
open Bezout

/-- Writes the profile of a run, if it has one. -/
def writeProfile (outcome : Outcome) : IO Outcome := do
  match outcome.profile with
  | none => pure outcome
  | some (path, lines) =>
    try
      IO.FS.writeFile path ("\n".intercalate lines ++ "\n")
      pure outcome
    catch _ => pure (outcome.withoutProfile .noSuchPlace)

def main (arguments : List String) : IO UInt32 := do
  let outcome ← writeProfile (Command.run Query.solvable arguments)
  outcome.stdout.forM fun line => IO.println line
  outcome.stderr.forM fun line => IO.eprintln line
  match outcome.ending with
  | .ok status => pure status.toUInt32
  | .error fault =>
    IO.eprintln fault.message
    pure 1
