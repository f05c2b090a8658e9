import CheckGate.Proofs.RunReport.Faithful
import CheckGate.Proofs.RunReport.Totals
import Mathlib.Algebra.BigOperators.Group.List.Basic
import Mathlib.Algebra.GroupWithZero.Nat

/-!
# Line breaks in a report

All that a report adds to the texts it is made of is free of line breaks: numbers, the names of
signals, times and the words between. So the line breaks of a line are those of the name, of the
command and of the reason, if the run has one, and no others.
-/

namespace CheckGate

/-- How many line breaks a text contains. -/
def newlines (text : String) : Nat :=
  text.toList.count '\n'

@[simp]
theorem newlines_append (first second : String) :
    newlines (first ++ second) = newlines first + newlines second := by
  simp [newlines]

theorem newlines_eq_zero_iff {text : String} : newlines text = 0 ↔ '\n' ∉ text.toList :=
  List.count_eq_zero

theorem sum_newlines_eq_zero {texts : List String} (clean : ∀ text ∈ texts, newlines text = 0) :
    (texts.map newlines).sum = 0 := by
  rw [List.sum_eq_zero_iff_forall_eq_nat]
  intro count countMem
  rcases List.mem_map.mp countMem with ⟨text, textMem, rfl⟩
  exact clean text textMem

namespace Decimal

@[simp]
theorem newlines_natRepr (number : Nat) : newlines number.repr = 0 := by
  rw [newlines_eq_zero_iff, Nat.toList_repr]
  exact not_mem_toDigits rfl number

@[simp]
theorem newlines_intRepr (number : Int) : newlines number.repr = 0 := by
  rw [newlines_eq_zero_iff]
  exact not_mem_repr (by decide) rfl number

end Decimal

theorem SignalName.newlines_ofNumber (signal : Int) :
    newlines (SignalName.ofNumber signal) = 0 := by
  have standardClean : ∀ name ∈ standardNames, newlines name = 0 := by decide
  unfold ofNumber
  cases found : standard? signal with
  | some name =>
      apply standardClean
      cases signal with
      | ofNat number =>
          cases number with
          | zero => cases found
          | succ index => exact List.mem_of_getElem? found
      | negSucc predecessor => cases found
  | none =>
      dsimp only
      by_cases realTime : firstRealTime ≤ signal ∧ signal ≤ lastRealTime
      · rw [if_pos realTime, newlines_append, Decimal.newlines_intRepr]
        rfl
      · rw [if_neg realTime, newlines_append, Decimal.newlines_intRepr]
        rfl

namespace Ending

/-- The free text of an ending. -/
def reason? : Ending → Option String
  | .exited _ => none
  | .killed _ => none
  | .notStarted reason => some reason

theorem newlines_describe (ending : Ending) :
    newlines ending.describe = (ending.reason?.map newlines).getD 0 := by
  cases ending with
  | exited code =>
      rw [describe_exited, newlines_append, Decimal.newlines_intRepr]
      rfl
  | killed signal =>
      simp only [describe_killed, newlines_append, Decimal.newlines_intRepr,
        SignalName.newlines_ofNumber]
      rfl
  | notStarted reason =>
      rw [describe_notStarted, newlines_append]
      simp [reason?, newlines]

end Ending

/-- Quoting a command for the shell neither drops nor adds a line break. -/
theorem Command.newlines_shellLine (command : Command) :
    newlines command.shellLine =
      newlines command.program + (command.arguments.map newlines).sum := by
  have byWord : newlines command.shellLine =
      (command.words.map String.toList).flatten.count '\n' := by
    rw [newlines, shellLine, String.toList_ofList]
    exact Shell.count_join (by decide) (by decide) (by decide) _
  rw [byWord, List.count_flatten, List.map_map]
  rfl

namespace RunReport

theorem newlines_time (elapsed : Elapsed) : newlines elapsed.text = 0 := by
  have newlineFree : ∀ number, '\n' ∉ Nat.toDigits 10 number := Decimal.not_mem_toDigits rfl
  rw [newlines_eq_zero_iff, Elapsed.toList_text]
  simp [newlineFree]

theorem newlines_verdict (run : CheckRun) :
    newlines (verdict run) = (run.ending.reason?.map newlines).getD 0 := by
  by_cases passed : run.passed = true
  · have success := Ending.isSuccess_iff.mp passed
    rw [verdict_of_passed passed, newlines_append, newlines_time, success]
    rfl
  · rw [verdict_of_not_passed passed, newlines_append, newlines_append, newlines_append,
      newlines_time, Ending.newlines_describe]
    simp [newlines]

theorem newlines_runLine (run : CheckRun) :
    newlines (runLine run) =
      newlines run.check.name + newlines run.check.command.shellLine +
        (run.ending.reason?.map newlines).getD 0 := by
  rw [runLine, newlines_append, newlines_append, newlines_append, newlines_append,
    newlines_append, newlines_verdict]
  simp [newlines, heading]

theorem newlines_counts (tally : Tally) : newlines (counts tally) = 0 := by
  have unitClean : newlines (if tally.total = 1 then " check, " else " checks, ") = 0 := by
    split
    · rfl
    · rfl
  simp only [counts, newlines_append, Decimal.newlines_natRepr, unitClean]
  rfl

theorem newlines_intercalate (names : List String) :
    newlines (", ".intercalate names) = (names.map newlines).sum := by
  induction names with
  | nil => rfl
  | cons name names ih =>
      cases names with
      | nil => simp
      | cons next names =>
          have separatorClean : newlines ", " = 0 := rfl
          rw [String.intercalate_cons_cons, newlines_append, newlines_append, ih, separatorClean]
          simp only [List.map_cons, List.sum_cons, Nat.add_zero]

theorem newlines_totalsLine (outcome : Outcome) :
    newlines (totalsLine outcome) = (outcome.failedNames.map newlines).sum := by
  have failuresClean : newlines (failures outcome.failedNames) =
      (outcome.failedNames.map newlines).sum := by
    by_cases noNames : outcome.failedNames = []
    · rw [noNames]
      rfl
    · rw [failures_of_ne_nil noNames, newlines_append, newlines_append, newlines_intercalate]
      simp [newlines]
  have headingClean : newlines heading = 0 := rfl
  rw [totalsLine, newlines_append, newlines_append, newlines_counts, headingClean, failuresClean,
    Nat.zero_add]

theorem newlines_eq_zero_of_mem_lines {outcome : Outcome}
    (namesClean : ∀ run ∈ outcome.runs, newlines run.check.name = 0)
    (commandsClean : ∀ run ∈ outcome.runs, newlines run.check.command.shellLine = 0)
    (reasonsClean : ∀ run ∈ outcome.runs, (run.ending.reason?.map newlines).getD 0 = 0)
    {line : String} (lineMem : line ∈ lines outcome) : newlines line = 0 := by
  rw [lines, List.mem_append, List.mem_map, List.mem_singleton] at lineMem
  rcases lineMem with ⟨run, runMem, rfl⟩ | rfl
  · rw [newlines_runLine, namesClean run runMem, commandsClean run runMem,
      reasonsClean run runMem]
  · rw [newlines_totalsLine]
    apply sum_newlines_eq_zero
    intro name nameMem
    rcases List.mem_map.mp nameMem with ⟨run, runMem, rfl⟩
    exact namesClean run (List.mem_filter.mp runMem).1

end RunReport

end CheckGate
