import ScriptTree.Runner

/-!
# The command line

Runs the document in the working directory and ends with the exit code of the run.
-/

open ScriptTree in
/-- Reads the input document, runs it and shows the outcome. -/
def main : IO UInt32 := do
  let input ←
    try
      pure (Runner.Input.bytes (← IO.FS.readBinFile Document.defaultName))
    catch _ => pure Runner.Input.missing
  let outcome := Runner.run input
  (← IO.getStdout).putStr outcome.output
  (← IO.getStderr).putStr outcome.errors
  return outcome.exitCode
