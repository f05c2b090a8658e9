import CheckGate.Command
import CheckGate.Elapsed
import CheckGate.Ending

/-!
# Checks and their outcomes

A check is a named command that a project has to get through. Running it leaves a record of how the
command ended and of how long that took; the check has passed if the command was a success.

The outcome of a gate is the list of its runs, in the order in which they took place. All that a
report says about them together is a view of this list: whether all have passed, the names of those
that have not, and the counts. No view keeps data of its own, so they cannot disagree.
-/

namespace CheckGate

/-- A named command to be run as a condition for passing. -/
structure Check where
  name : String
  command : Command
  deriving DecidableEq

/-- The record of one run of a check. -/
structure CheckRun where
  check : Check
  ending : Ending
  elapsed : Elapsed
  deriving DecidableEq

namespace CheckRun

/-- Whether the check passed in this run. -/
def passed (run : CheckRun) : Bool :=
  run.ending.isSuccess

end CheckRun

/-- How many checks there are, and how many of them passed and failed. -/
structure Tally where
  total : Nat
  passed : Nat
  failed : Nat
  deriving DecidableEq

/-- The runs of a gate, in the order in which they took place. -/
structure Outcome where
  runs : List CheckRun
  deriving DecidableEq

namespace Outcome

/-- The outcome without any runs. -/
def empty : Outcome := ⟨[]⟩

/-- The runs of one outcome followed by those of another. -/
def append (earlier later : Outcome) : Outcome :=
  ⟨earlier.runs ++ later.runs⟩

instance : Append Outcome := ⟨append⟩

/-- Whether every check passed. -/
def passed (outcome : Outcome) : Bool :=
  outcome.runs.all CheckRun.passed

/-- The names of the checks that failed, in order and as often as they failed. -/
def failedNames (outcome : Outcome) : List String :=
  (outcome.runs.filter fun run => !run.passed).map fun run => run.check.name

/-- The counts of an outcome. -/
def tally (outcome : Outcome) : Tally :=
  let total := outcome.runs.length
  let passed := outcome.runs.countP CheckRun.passed
  { total, passed, failed := total - passed }

/-- The given runs with given times, in order; runs beyond the last time took none. -/
def retimeRuns : List Elapsed → List CheckRun → List CheckRun
  | _, [] => []
  | [], run :: runs => { run with elapsed := .zero } :: retimeRuns [] runs
  | time :: times, run :: runs => { run with elapsed := time } :: retimeRuns times runs

/-- The same outcome with given times in place of the measured ones. -/
def retime (outcome : Outcome) (times : List Elapsed) : Outcome :=
  ⟨retimeRuns times outcome.runs⟩

end Outcome

end CheckGate
