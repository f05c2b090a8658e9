import CheckGate.Proofs.RunReport.LineBreaks

/-!
# Printed reports

A printed report is its lines, each closed by a line break. Apart from these it has the line breaks
of the free texts that it shows and no others: names, programs, arguments and reasons, and the name
of a failed check a second time, in the last line. If none of these texts has a line break, then
the printed lines are the lines of the report, and cutting the text at its line breaks gives them
back.
-/

namespace CheckGate

/-- None of the free texts that a report shows about a run has a line break. -/
structure CheckRun.BreakFree (run : CheckRun) : Prop where
  /-- The name has none. -/
  name : newlines run.check.name = 0
  /-- The program has none. -/
  program : newlines run.check.command.program = 0
  /-- No argument has one. -/
  arguments : ∀ argument ∈ run.check.command.arguments, newlines argument = 0
  /-- The reason has none, if the command was not started. -/
  reason : ∀ reason, run.ending = .notStarted reason → newlines reason = 0

namespace CheckRun.BreakFree

variable {run : CheckRun}

theorem shellLine (breakFree : run.BreakFree) : newlines run.check.command.shellLine = 0 := by
  rw [Command.newlines_shellLine, breakFree.program, sum_newlines_eq_zero breakFree.arguments]

theorem reason? (breakFree : run.BreakFree) : (run.ending.reason?.map newlines).getD 0 = 0 := by
  cases ended : run.ending with
  | exited code => rfl
  | killed signal => rfl
  | notStarted reason => exact breakFree.reason reason ended

end CheckRun.BreakFree

namespace RunReport

theorem newlines_closeLine (line : String) : newlines (closeLine line) = newlines line + 1 := by
  rw [closeLine, newlines_append]
  rfl

/-- Lines that are closed one by one have a line break each beside their own. -/
theorem newlines_join_closeLine (lines : List String) :
    newlines (String.join (lines.map closeLine)) =
      lines.length + (lines.map newlines).sum := by
  induction lines with
  | nil => rfl
  | cons line lines ih =>
      rw [List.map_cons, String.join_cons, newlines_append, newlines_closeLine, ih]
      simp only [List.length_cons, List.map_cons, List.sum_cons]
      omega

/-- Closing each line is the same as separating the lines, with nothing after the last break. -/
theorem toList_join_closeLine (lines : List String) :
    (String.join (lines.map closeLine)).toList =
      ['\n'].intercalate (lines.map String.toList ++ [[]]) := by
  induction lines with
  | nil => rfl
  | cons line lines ih =>
      have nonempty : lines.map String.toList ++ [[]] ≠ [] := by simp
      rcases List.exists_cons_of_ne_nil nonempty with ⟨next, rest, closed⟩
      rw [List.map_cons, String.join_cons, String.toList_append, ih, List.map_cons,
        List.cons_append, closed, List.intercalate_cons_cons]
      simp [closeLine]

/-- Cutting closed lines at their line breaks gives them back, and nothing is left after them. -/
theorem splitOn_join_closeLine {lines : List String}
    (clean : ∀ line ∈ lines, newlines line = 0) :
    ((String.join (lines.map closeLine)).toList.splitOn '\n').map String.ofList =
      lines ++ [""] := by
  have noBreak : ∀ part ∈ lines.map String.toList ++ [[]], '\n' ∉ part := by
    intro part partMem
    rcases List.mem_append.mp partMem with isLine | isRest
    · rcases List.mem_map.mp isLine with ⟨line, lineMem, rfl⟩
      exact newlines_eq_zero_iff.mp (clean line lineMem)
    · rw [List.mem_singleton.mp isRest]
      exact List.not_mem_nil
  rw [toList_join_closeLine, List.splitOn_intercalate '\n' noBreak (by simp)]
  simp

theorem sum_newlines_runLine (runs : List CheckRun) :
    (runs.map fun run => newlines (runLine run)).sum =
      (runs.map fun run => newlines run.check.name + newlines run.check.command.program +
        (run.check.command.arguments.map newlines).sum).sum +
      (runs.map fun run => (run.ending.reason?.map newlines).getD 0).sum := by
  rw [← List.sum_map_add]
  simp only [newlines_runLine, Command.newlines_shellLine, Nat.add_assoc]

theorem length_lines (outcome : Outcome) : (lines outcome).length = outcome.runs.length + 1 := by
  simp [lines]

theorem newlines_text (outcome : Outcome) :
    newlines (text outcome) =
      outcome.runs.length + 1 +
      (outcome.runs.map fun run => newlines run.check.name + newlines run.check.command.program +
        (run.check.command.arguments.map newlines).sum).sum +
      (outcome.failedNames.map newlines).sum +
      (outcome.runs.map fun run => (run.ending.reason?.map newlines).getD 0).sum := by
  have byLine : ((lines outcome).map newlines).sum =
      (outcome.runs.map fun run => newlines (runLine run)).sum +
        newlines (totalsLine outcome) := by
    rw [lines, List.map_append, List.sum_append, List.map_map]
    simp [Function.comp_def]
  rw [text, newlines_join_closeLine, length_lines, byLine, sum_newlines_runLine,
    newlines_totalsLine]
  omega

theorem newlines_eq_zero_of_breakFree {outcome : Outcome}
    (breakFree : ∀ run ∈ outcome.runs, run.BreakFree) {line : String}
    (lineMem : line ∈ lines outcome) : newlines line = 0 := by
  refine newlines_eq_zero_of_mem_lines ?_ ?_ ?_ lineMem
  · intro run runMem
    exact (breakFree run runMem).name
  · intro run runMem
    exact (breakFree run runMem).shellLine
  · intro run runMem
    exact (breakFree run runMem).reason?

/--
A printed report has one line break for each of its lines and those of the free texts that it shows.
If there are none in these texts, cutting it at its line breaks gives the lines back.
-/
theorem print_has_the_line_breaks_of_its_texts (outcome : Outcome) :
    (print outcome).stdout = "" ∧
    newlines (print outcome).stderr =
      outcome.runs.length + 1 +
      (outcome.runs.map fun run => newlines run.check.name + newlines run.check.command.program +
        (run.check.command.arguments.map newlines).sum).sum +
      (outcome.failedNames.map newlines).sum +
      (outcome.runs.map fun run => (run.ending.reason?.map newlines).getD 0).sum ∧
    ((∀ run ∈ outcome.runs, run.BreakFree) →
      newlines (print outcome).stderr = outcome.runs.length + 1 ∧
      ((print outcome).stderr.toList.splitOn '\n').map String.ofList = lines outcome ++ [""]) := by
  refine ⟨rfl, newlines_text outcome, ?_⟩
  intro breakFree
  have linesClean : ∀ line ∈ lines outcome, newlines line = 0 := by
    intro line lineMem
    exact newlines_eq_zero_of_breakFree breakFree lineMem
  have printed : (print outcome).stderr = String.join ((lines outcome).map closeLine) := rfl
  rw [printed]
  refine ⟨?_, splitOn_join_closeLine linesClean⟩
  rw [newlines_join_closeLine, length_lines, sum_newlines_eq_zero linesClean]

end RunReport

end CheckGate
