import CheckGate.Outcome

/-!
# Output and reports

A program writes to two streams, and what it has written is a pair of texts. Programs that run one
after another add to both streams in turn, so their outputs are joined stream by stream; nothing
is said about how the two streams mix.

A report has one line for each run, in order, and a last line with the counts and the names of the
checks that failed. A line about a run gives the name of the check, its command as shell text, the
ending unless it was a success, and the time. The parts are free text: a name or a reason may hold
line breaks, and then its line takes up several lines of the printed report. Reports are printed to
the standard error, which leaves the standard output to the checks.
-/

namespace CheckGate

/-- What was written to the two standard streams of a program. -/
structure Output where
  stdout : String
  stderr : String
  deriving DecidableEq

namespace Output

/-- The output of a program that writes nothing. -/
def empty : Output := ⟨"", ""⟩

/-- One output followed by another. -/
def append (earlier later : Output) : Output :=
  ⟨earlier.stdout ++ later.stdout, earlier.stderr ++ later.stderr⟩

instance : Append Output := ⟨append⟩

/-- The given outputs, one after another. -/
def concat : List Output → Output
  | [] => empty
  | output :: outputs => output ++ concat outputs

/-- The output of a program that writes only to the standard error. -/
def onStderr (text : String) : Output := ⟨"", text⟩

end Output

end CheckGate

namespace CheckGate.RunReport

/-- What every line of a report begins with. -/
def heading : String := "hygiene: "

/-- How a run went, without the check that it was a run of. -/
def verdict (run : CheckRun) : String :=
  if run.passed then
    "passed in " ++ run.elapsed.text
  else
    "failed: " ++ run.ending.describe ++ ", after " ++ run.elapsed.text

/-- The line about one run. -/
def runLine (run : CheckRun) : String :=
  heading ++ run.check.name ++ " (" ++ run.check.command.shellLine ++ ") " ++ verdict run

/-- The counts in words. -/
def counts (tally : Tally) : String :=
  tally.total.repr ++ (if tally.total = 1 then " check, " else " checks, ") ++
    tally.passed.repr ++ " passed, " ++ tally.failed.repr ++ " failed"

/-- The names of the checks that failed, in brackets, if there are any. -/
def failures (names : List String) : String :=
  if names.isEmpty then
    ""
  else
    " (" ++ ", ".intercalate names ++ ")"

/-- The last line, about all runs together. -/
def totalsLine (outcome : Outcome) : String :=
  heading ++ counts outcome.tally ++ failures outcome.failedNames

/-- The lines of a report. -/
def lines (outcome : Outcome) : List String :=
  outcome.runs.map runLine ++ [totalsLine outcome]

/-- A line with the line break that closes it. -/
def closeLine (line : String) : String := line ++ "\n"

/-- A report as one text. -/
def text (outcome : Outcome) : String :=
  String.join ((lines outcome).map closeLine)

/-- What printing a report writes. -/
def print (outcome : Outcome) : Output :=
  .onStderr (text outcome)

end CheckGate.RunReport
