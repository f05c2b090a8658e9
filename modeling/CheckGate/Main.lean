import CheckGate.CommandLine

/-!
# The program

The outermost layer of the command line: it takes the arguments from the system, prints what the
call has written, and exits with its code. It starts no processes of its own: the host that it runs
on has an empty directory of programs and an empty input, so that every check is reported as one
that could not be started.
-/

open CheckGate

/-- Calls the program on a host without programs. -/
def main (arguments : List String) : IO UInt32 := do
  let execution := CommandLine.execute ⟨[]⟩ Clock.stopped () "" (arguments.map Utf8.encode)
  (← IO.getStdout).putStr execution.output.stdout
  (← IO.getStderr).putStr execution.output.stderr
  return execution.exitCode.toUInt32
