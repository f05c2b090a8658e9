import CheckGate.Outcome

/-!
# Machines and gates

Running checks needs two things of its surroundings: something that carries out a command, and a
clock. A `Machine` offers both as steps on a state, so that how a command ends may depend on all
that was carried out before, and the clock may move whenever anything happens.

An executor that knows nothing of time becomes a machine by putting a clock beside it. Such a clock
has a state of its own and never goes back. It may move on by any amount while a command is carried
out, and before and after each reading, but cannot change how a command ends.

A gate runs its checks one after another, each to its end before the next one starts. A check that
fails does not keep the others from running: every check leaves exactly one record, so that a
single run of the gate shows all failures. Only a gate without checks refuses to run, since its
success would mean nothing.
-/

namespace CheckGate

/-- A point in time, in nanoseconds since the origin of a clock. -/
abbrev Instant := Nat

/-- Something that carries out a command to its end, and may be changed by doing so. -/
abbrev Executor (State : Type) := Command → StateM State Ending

/-- What checks are run on: an executor and a clock that share a state. -/
structure Machine (State : Type) where
  execute : Executor State
  now : StateM State Instant

/-- A clock that never goes back. -/
structure Clock (State : Type) where
  /-- The point in time at which the clock stands. -/
  instant : State → Instant
  /-- Takes a reading, which may itself take time. -/
  read : StateM State Instant
  /-- Lets the time pass that a command takes. -/
  pass : Command → State → State
  instant_le_read : ∀ state, instant state ≤ (read state).1
  read_le_instant : ∀ state, (read state).1 ≤ instant (read state).2
  instant_le_pass : ∀ command state, instant state ≤ instant (pass command state)

namespace Clock

/-- A clock that stands still. -/
def stopped : Clock Unit where
  instant := fun _ => 0
  read := fun state => (0, state)
  pass := fun _ state => state
  instant_le_read := fun _ => Nat.le_refl 0
  read_le_instant := fun _ => Nat.le_refl 0
  instant_le_pass := fun _ _ => Nat.le_refl 0

end Clock

namespace Executor

variable {State ClockState : Type}

/-- The machine on which an executor carries out the commands and a clock beside it times them. -/
def timedBy (executor : Executor State) (clock : Clock ClockState) :
    Machine (State × ClockState) where
  execute := fun command (state, clockState) =>
    let (ending, state) := executor command state
    (ending, state, clock.pass command clockState)
  now := fun (state, clockState) =>
    let (instant, clockState) := clock.read clockState
    (instant, state, clockState)

end Executor

end CheckGate

namespace CheckGate.Gate

/-- Why a gate does not run. -/
inductive Refusal where
  | noChecks
  deriving DecidableEq

/-- The refusal in words. -/
def Refusal.message : Refusal → String
  | .noChecks => "no checks to run"

/-- The command that runs the linter. -/
def linter : Command := ⟨"cargo", ["clippy"]⟩

/-- The command that runs the tests. -/
def testSuite : Command := ⟨"cargo", ["test"]⟩

/-- The checks of a gate that is not told otherwise: the linter first, then the tests. -/
def defaultChecks : List Check :=
  [⟨"lint", linter⟩, ⟨"test", testSuite⟩]

variable {State : Type}

/-- Runs one check, with a reading of the clock right before its command and one right after. -/
def runCheck (machine : Machine State) (check : Check) : StateM State CheckRun := do
  let start ← machine.now
  let ending ← machine.execute check.command
  let finish ← machine.now
  return { check, ending, elapsed := ⟨finish - start⟩ }

/-- Runs checks one after another, and gives their records in order. -/
def runAll (machine : Machine State) (checks : List Check) : StateM State (List CheckRun) :=
  checks.mapM (runCheck machine)

/-- Runs the checks of a gate in order. -/
def run (machine : Machine State) (checks : List Check) :
    StateM State (Except Refusal Outcome) := do
  if checks.isEmpty then
    return .error .noChecks
  else
    let runs ← runAll machine checks
    return .ok ⟨runs⟩

end CheckGate.Gate
