import CheckGate.RunReport
import CheckGate.Script

/-!
# Sessions

A session works on one gate over time. It keeps the list of checks, the script that their commands
are given to, and a history of runs, each of which the operations change in turn. The script lives
through all runs of the gate, so a later run goes on with the replies that an earlier one has left;
the history collects runs of the gate as well as records that are put in by hand.
-/

namespace CheckGate

/-- The state of a session. -/
structure Session where
  /-- The checks that the next run of the gate is made of. -/
  checks : List Check
  script : Script
  history : Outcome
  deriving DecidableEq

namespace Session

/-- The session in which nothing has happened. -/
def empty : Session :=
  { checks := [], script := .ofReplies [], history := .empty }

/-- What can be done in a session. -/
inductive Operation where
  /-- Puts a check at the end of the list. -/
  | addCheck (check : Check)
  | useDefaultChecks
  | reverseChecks
  | clearChecks
  | extendScript (replies : List Reply)
  /-- Runs the gate and collects its runs under the given times. -/
  | runGate (times : List Elapsed)
  /-- Collects a record made by hand. -/
  | record (run : CheckRun)
  | aggregate
  | clearHistory
  /-- Asks for the shell text of every command that the script was given. -/
  | listCommands
  deriving DecidableEq

/-- What a session answers to an operation. -/
inductive Answer where
  | checkCount (count : Nat)
  /-- The names of the checks, in their present order. -/
  | checkNames (names : List String)
  | pendingCount (count : Nat)
  /-- How the gate went, how many replies are left, and how many commands the script was given. -/
  | gate (result : Except Gate.Refusal Outcome) (pending given : Nat)
  | recordCount (count : Nat)
  | outcome (outcome : Outcome)
  | shellLines (lines : List String)

/-- Runs the gate of a session. -/
def runGate (times : List Elapsed) (session : Session) : Answer × Session :=
  let (result, script) := Gate.run Script.machine session.checks session.script
  let result := result.map fun outcome => outcome.retime times
  let collected := match result with
    | .ok outcome => outcome
    | .error _ => .empty
  (.gate result script.pending.length script.exchanges.length,
    { session with script, history := session.history ++ collected })

/-- Performs one operation. -/
def perform (operation : Operation) : StateM Session Answer := fun session =>
  match operation with
  | .addCheck check =>
      let checks := session.checks ++ [check]
      (.checkCount checks.length, { session with checks })
  | .useDefaultChecks =>
      (.checkCount Gate.defaultChecks.length, { session with checks := Gate.defaultChecks })
  | .reverseChecks =>
      let checks := session.checks.reverse
      (.checkNames (checks.map Check.name), { session with checks })
  | .clearChecks => (.checkCount 0, { session with checks := [] })
  | .extendScript replies =>
      let script := session.script.extend replies
      (.pendingCount script.pending.length, { session with script })
  | .runGate times => runGate times session
  | .record run =>
      let history := session.history ++ ⟨[run]⟩
      (.recordCount history.runs.length, { session with history })
  | .aggregate => (.outcome session.history, session)
  | .clearHistory => (.recordCount 0, { session with history := .empty })
  | .listCommands => (.shellLines (session.script.commands.map Command.shellLine), session)

/-- Performs operations in order, from the session in which nothing has happened. -/
def answers (operations : List Operation) : List Answer :=
  (operations.mapM perform empty).1

end Session

end CheckGate
