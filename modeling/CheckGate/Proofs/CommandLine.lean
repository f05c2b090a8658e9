import CheckGate.CommandLine
import CheckGate.Proofs.Gate
import CheckGate.Proofs.Host.Console
import CheckGate.Proofs.RunReport.LineBreaks
import CheckGate.Proofs.RunReport.Totals
import CheckGate.Proofs.Ending

/-!
# Calls without arguments

A call without arguments attempts the linter and then the tests, whatever becomes of the linter.
What it writes is what the processes of the two have written, followed by the report on the standard
error. Three things tell whether the gate was passed: the endings of the two commands, the exit code
and the last line of the report. They are computed apart and always tell the same.
-/

namespace CheckGate.CommandLine

open Host

variable {State ClockState : Type}

/--
The commands that a call attempts to carry out, in order, read off an executor that records them.
-/
def attempts (directory : Directory) (clock : Clock ClockState) (clockState : ClockState)
    (input : String) (arguments : List (List UInt8)) : List Command :=
  (respond (directory.executor.recorded.timedBy clock) (Request.ofArguments arguments)
    ((Console.ofInput input, []), clockState)).2.1.2

theorem respond_check (machine : Machine State) (state : State) :
    respond machine .check state =
      (.ofResult (Gate.run machine Gate.defaultChecks state).1,
        (Gate.run machine Gate.defaultChecks state).2) := rfl

/-- A call whose gate runs writes the report after all that the processes have written. -/
theorem execute_nil_of_ok (directory : Directory) (clock : Clock ClockState)
    (clockState : ClockState) (input : String) {outcome : Outcome} {console : Console}
    (ran : (Gate.run (directory.executor.timedBy clock) Gate.defaultChecks
      (Console.ofInput input, clockState)).1 = .ok outcome)
    (left : (Gate.run (directory.executor.timedBy clock) Gate.defaultChecks
      (Console.ofInput input, clockState)).2.1 = console) :
    execute directory clock clockState input [] =
      { exitCode := if outcome.passed then successCode else failureCode
        output := console.output ++ RunReport.print outcome
        started := console.started
        unread := console.unread } := by
  have executed : execute directory clock clockState input [] =
      let result := Gate.run (directory.executor.timedBy clock) Gate.defaultChecks
        (Console.ofInput input, clockState)
      { exitCode := (Response.ofResult result.1).exitCode
        output := result.2.1.output ++ (Response.ofResult result.1).output
        started := result.2.1.started
        unread := result.2.1.unread } := rfl
  rw [executed]
  dsimp only
  rw [ran, left]
  rfl

/-- The commands of the default checks are attempted in order, whatever they come to. -/
theorem attempts_nil (directory : Directory) (clock : Clock ClockState) (clockState : ClockState)
    (input : String) :
    attempts directory clock clockState input [] = [Gate.linter, Gate.testSuite] := by
  unfold attempts Request.ofArguments
  rw [respond_check, Gate.run_recorded]
  rfl

/-- The default checks are never refused, and come to the endings of their commands in order. -/
theorem run_defaultChecks (executor : Executor State) (clock : Clock ClockState) (state : State)
    (clockState : ClockState) :
    ∃ lint test : CheckRun,
      (Gate.run (executor.timedBy clock) Gate.defaultChecks (state, clockState)).1 =
        .ok ⟨[lint, test]⟩ ∧
      (Gate.run (executor.timedBy clock) Gate.defaultChecks (state, clockState)).2.1 =
        (executor Gate.testSuite (executor Gate.linter state).2).2 ∧
      lint.check = ⟨"lint", Gate.linter⟩ ∧ lint.ending = (executor Gate.linter state).1 ∧
      test.check = ⟨"test", Gate.testSuite⟩ ∧
      test.ending = (executor Gate.testSuite (executor Gate.linter state).2).1 :=
  ⟨_, _, rfl, rfl, rfl, rfl, rfl, rfl⟩

theorem newlines_reason (error : StartError) (program : String) :
    newlines (error.reason program) = newlines program := by
  have messageClean : newlines error.message = 0 := by
    cases error <;> rfl
  change newlines ("failed to invoke `" ++ program ++ "`: " ++ error.message) = newlines program
  rw [newlines_append, newlines_append, newlines_append, messageClean]
  change 0 + newlines program + 0 + 0 = newlines program
  omega

theorem reason?_ending (status : WaitStatus) : status.ending.reason? = none := by
  cases ended : status.ending with
  | exited code => rfl
  | killed signal => rfl
  | notStarted reason => exact absurd ended (status.ending_ne_notStarted reason)

theorem newlines_reason?_executor (directory : Directory) {command : Command}
    (cleanProgram : newlines command.program = 0) (console : Console) :
    ((directory.executor command console).1.reason?.map newlines).getD 0 = 0 := by
  rcases directory.ending_executor command console with ⟨child, _, ending⟩ | ⟨error, _, ending⟩
  · rw [ending, Child.ending, reason?_ending]
    rfl
  · rw [ending]
    exact (newlines_reason error command.program).trans cleanProgram

/-- No line of a report on commands without line breaks has one, whatever they came to. -/
theorem newlines_line_of_executed (directory : Directory) {lint test : CheckRun}
    {console lintConsole : Console}
    (lintCheck : lint.check = ⟨"lint", Gate.linter⟩)
    (testCheck : test.check = ⟨"test", Gate.testSuite⟩)
    (lintEnding : lint.ending = (directory.executor Gate.linter console).1)
    (testEnding : test.ending = (directory.executor Gate.testSuite lintConsole).1)
    {line : String} (lineMem : line ∈ RunReport.lines ⟨[lint, test]⟩) : newlines line = 0 := by
  apply RunReport.newlines_eq_zero_of_mem_lines _ _ _ lineMem
  · simp only [List.forall_mem_cons, lintCheck, testCheck]
    exact ⟨rfl, rfl, by simp⟩
  · simp only [List.forall_mem_cons, lintCheck, testCheck]
    exact ⟨rfl, rfl, by simp⟩
  · simp only [List.forall_mem_cons, lintEnding, testEnding]
    exact ⟨newlines_reason?_executor directory rfl _, newlines_reason?_executor directory rfl _,
      by simp⟩

theorem stderr_print_pair (first second : CheckRun) :
    (RunReport.print ⟨[first, second]⟩).stderr =
      RunReport.runLine first ++ "\n" ++ RunReport.runLine second ++ "\n" ++
        RunReport.totalsLine ⟨[first, second]⟩ ++ "\n" := by
  change String.join (([RunReport.runLine first, RunReport.runLine second,
    RunReport.totalsLine ⟨[first, second]⟩]).map RunReport.closeLine) = _
  simp only [List.map_cons, List.map_nil, String.join_cons, String.join_nil,
    RunReport.closeLine, String.append_assoc, String.append_empty]

theorem passed_pair_iff (lint test : CheckRun) :
    Outcome.passed ⟨[lint, test]⟩ = true ↔
      lint.ending = .exited 0 ∧ test.ending = .exited 0 := by
  simp only [Outcome.passed_iff, List.forall_mem_cons, CheckRun.passed_iff,
    List.not_mem_nil, false_imp_iff, implies_true, and_true]

/--
A call without arguments attempts the linter and then the tests, and succeeds if both exited with
zero. After what the processes wrote, the standard error goes on with three lines, of which the last
one reports no failure exactly if the call succeeds.
-/
theorem execute_runs_default_checks (directory : Directory) (clock : Clock ClockState)
    (clockState : ClockState) (input : String) :
    ∃ (lint test : CheckRun) (lintLine testLine lastLine : String),
      let lintCommand : Command := ⟨"cargo", ["clippy"]⟩
      let testCommand : Command := ⟨"cargo", ["test"]⟩
      let linted := directory.executor lintCommand (Console.ofInput input)
      let tested := directory.executor testCommand linted.2
      let execution := execute directory clock clockState input []
      attempts directory clock clockState input [] = [lintCommand, testCommand] ∧
      (Gate.run (directory.executor.timedBy clock) Gate.defaultChecks
        (Console.ofInput input, clockState)).1 = .ok ⟨[lint, test]⟩ ∧
      lint.check = ⟨"lint", lintCommand⟩ ∧ lint.ending = linted.1 ∧
      test.check = ⟨"test", testCommand⟩ ∧ test.ending = tested.1 ∧
      execution.exitCode = (if linted.1 = .exited 0 ∧ tested.1 = .exited 0 then 0 else 1) ∧
      execution.started =
        (directory.child? lintCommand input.toList).toList ++
          (directory.child? testCommand linted.2.unread).toList ∧
      (∀ child, directory.child? lintCommand input.toList = some child →
        linted.1 = child.behaviour.finish.status.ending) ∧
      (∀ child, directory.child? testCommand linted.2.unread = some child →
        tested.1 = child.behaviour.finish.status.ending) ∧
      execution.output.stdout = String.join (execution.started.map fun child =>
        String.join (child.readings.map Reading.report) ++ child.behaviour.stdout) ∧
      RunReport.lines ⟨[lint, test]⟩ = [lintLine, testLine, lastLine] ∧
      (∀ line ∈ [lintLine, testLine, lastLine], newlines line = 0) ∧
      execution.output.stderr =
        String.join (execution.started.map fun child => child.behaviour.stderr) ++
          (lintLine ++ "\n" ++ testLine ++ "\n" ++ lastLine ++ "\n") ∧
      (execution.exitCode = 0 ↔ RunReport.ReportsNoFailure lastLine) := by
  rcases run_defaultChecks directory.executor clock (Console.ofInput input) clockState with
    ⟨lint, test, ran, console, lintCheck, lintEnding, testCheck, testEnding⟩
  refine ⟨lint, test, RunReport.runLine lint, RunReport.runLine test,
    RunReport.totalsLine ⟨[lint, test]⟩, ?_⟩
  intro lintCommand testCommand linted tested execution
  have executed : execution =
      { exitCode := if Outcome.passed ⟨[lint, test]⟩ then successCode else failureCode
        output := tested.2.output ++ RunReport.print ⟨[lint, test]⟩
        started := tested.2.started
        unread := tested.2.unread } :=
    execute_nil_of_ok directory clock clockState input ran console
  have passed : Outcome.passed ⟨[lint, test]⟩ = true ↔
      linted.1 = .exited 0 ∧ tested.1 = .exited 0 := by
    rw [passed_pair_iff, lintEnding, testEnding]
    rfl
  have exitCode : execution.exitCode =
      if linted.1 = .exited 0 ∧ tested.1 = .exited 0 then 0 else 1 := by
    rw [executed]
    simp only [passed]
    rfl
  refine ⟨attempts_nil directory clock clockState input, ran, lintCheck, lintEnding, testCheck,
    testEnding, exitCode, ?_, ?_, ?_, ?_, rfl, ?_, ?_, ?_⟩
  · rw [executed]
    dsimp only
    rw [directory.started_executor, directory.started_executor]
    rfl
  · intro child started
    exact Directory.ending_executor_of_child? started
  · intro child started
    exact Directory.ending_executor_of_child? started
  · rw [executed]
    change tested.2.output.stdout ++ "" = _
    rw [Console.output_eq, String.append_empty]
  · intro line lineMem
    exact newlines_line_of_executed directory lintCheck testCheck lintEnding testEnding lineMem
  · rw [executed]
    change tested.2.output.stderr ++ (RunReport.print ⟨[lint, test]⟩).stderr = _
    rw [Console.output_eq, stderr_print_pair]
  · rw [RunReport.reportsNoFailure_totalsLine_iff, passed, exitCode]
    simp

end CheckGate.CommandLine
