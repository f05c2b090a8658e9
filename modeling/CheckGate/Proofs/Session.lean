import CheckGate.Proofs.Outcome
import CheckGate.Proofs.Script
import CheckGate.Session

/-!
# What a session does to its script

A session has more to do than its script has: it changes the list of checks, collects runs and
answers questions. As far as the script is concerned, most of that is nothing, and the rest is what
can be done with a script of its own. The operations of a session are therefore followed by
operations of its script. One operation of the session is followed by at most one of the script,
which depends on the checks at that moment, and a whole session by all of them in turn.

The times that a session puts in place of the measured ones are the one thing that its gate reports
and its script knows nothing of. They change no ending, so both report the same endings, and all
that is known of what becomes of the replies of a script holds in a session. For the same reason
they do not show in what the history tells of a gate, the times themselves apart.
-/

namespace CheckGate.Session

/-- The checks that an operation leaves. -/
def Operation.onChecks (checks : List Check) : Operation → List Check
  | .addCheck check => checks ++ [check]
  | .useDefaultChecks => Gate.defaultChecks
  | .reverseChecks => checks.reverse
  | .clearChecks => []
  | _ => checks

/-- What an operation does to the script, with the given checks. -/
def Operation.onScript (checks : List Check) : Operation → List Script.Operation
  | .extendScript replies => [.extend replies]
  | .runGate _ => [.run checks]
  | _ => []

/-- What operations do to the script, one after another, from the given checks on. -/
def scriptOperations : List Check → List Operation → List Script.Operation
  | _, [] => []
  | checks, operation :: operations =>
      operation.onScript checks ++ scriptOperations (operation.onChecks checks) operations

/-- The endings that an answer reports. -/
def Answer.endings : Answer → List Ending
  | .gate result _ _ => Gate.endings result
  | _ => []

theorem endings_map_retime (times : List Elapsed) (result : Except Gate.Refusal Outcome) :
    Gate.endings (result.map fun outcome => outcome.retime times) = Gate.endings result := by
  cases result with
  | error refusal => rfl
  | ok outcome => exact Outcome.map_retimeRuns (fun _ _ => rfl) times outcome.runs

theorem checks_perform (operation : Operation) (session : Session) :
    (perform operation session).2.checks = operation.onChecks session.checks := by
  cases operation <;> rfl

/-- One operation reports and leaves what the operations on the script do that follow it. -/
theorem perform_onScript (operation : Operation) (session : Session) :
    let followed := Script.performAll (operation.onScript session.checks) session.script
    (perform operation session).1.endings = followed.1.flatten ∧
      (perform operation session).2.script = followed.2 := by
  cases operation with
  | runGate times =>
      refine ⟨?_, rfl⟩
      exact (endings_map_retime times _).trans (List.append_nil _).symm
  | _ => exact ⟨rfl, rfl⟩

/-- Operations in a session report and leave what those on its script do that follow them. -/
theorem mapM_perform_onScript (operations : List Operation) (session : Session) :
    let followed := Script.performAll (scriptOperations session.checks operations) session.script
    (operations.mapM perform session).1.flatMap Answer.endings = followed.1.flatten ∧
      (operations.mapM perform session).2.script = followed.2 := by
  induction operations generalizing session with
  | nil => exact ⟨rfl, rfl⟩
  | cons operation operations ih =>
      rcases perform_onScript operation session with ⟨firstEndings, firstScript⟩
      rcases ih (perform operation session).2 with ⟨otherEndings, otherScript⟩
      rw [checks_perform, firstScript] at otherEndings otherScript
      simp only [Sequence.mapM_cons, scriptOperations, Script.performAll_append]
      constructor
      · rw [List.flatMap_cons, List.flatten_append, firstEndings, otherEndings]
      · exact otherScript

/-- A gate that was run adds its verdict, names and counts to those of the history. -/
theorem history_runGate {session : Session} {outcome : Outcome} {script : Script}
    (ran : Gate.run Script.machine session.checks session.script = (.ok outcome, script))
    (times : List Elapsed) :
    let history := (perform (.runGate times) session).2.history
    history.passed = (session.history.passed && outcome.passed) ∧
      history.tally = session.history.tally + outcome.tally ∧
      history.failedNames = session.history.failedNames ++ outcome.failedNames := by
  intro history
  have collected : history = session.history ++ outcome.retime times := by
    simp only [history, perform, runGate, ran]
    rfl
  rcases outcome.views_retime times with ⟨passed, tally, failedNames⟩
  refine ⟨?_, ?_, ?_⟩
  · rw [collected, Outcome.passed_append, passed]
  · rw [collected, Outcome.tally_append, tally]
  · rw [collected, Outcome.failedNames_append, failedNames]

/--
Whatever was done in a session, its script was given the commands of the checks of every gate, has
come to the endings that the gates have reported, and has lost none of the replies.
-/
theorem script_accounts (operations : List Operation) :
    (Script.ofReplies []).Accounts
      ((scriptOperations [] operations).flatMap Script.Operation.commands)
      ((answers operations).flatMap Answer.endings)
      ((scriptOperations [] operations).flatMap Script.Operation.replies)
      (operations.mapM perform empty).2.script := by
  rcases mapM_perform_onScript operations empty with ⟨endings, script⟩
  have account := Script.performAll_accounts (scriptOperations [] operations) (.ofReplies [])
  rw [answers, endings, script]
  exact account

/-- A session lists the commands of the checks of every gate that was run in it. -/
theorem answers_listCommands (operations : List Operation) :
    answers (operations ++ [.listCommands]) =
      answers operations ++ [.shellLines
        (((scriptOperations [] operations).flatMap Script.Operation.commands).map
          Command.shellLine)] := by
  have given := (script_accounts operations).commands_eq
  rw [answers, Sequence.mapM_append, answers, Sequence.mapM_cons]
  simp only [perform, given]
  rfl

end CheckGate.Session
