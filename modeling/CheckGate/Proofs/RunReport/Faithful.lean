import CheckGate.Proofs.Elapsed
import CheckGate.Proofs.Ending
import CheckGate.Proofs.Outcome
import CheckGate.Proofs.Shell.Scan
import CheckGate.Proofs.Shell.Split
import CheckGate.RunReport
import Mathlib.Data.List.Forall2

/-!
# Reports tell runs apart

A line of a report is glued together from texts that are free to contain anything, such as what
looks like the end of the command, like a time, or like another line. Nevertheless the line
determines them. The name ends at the first blank with an opening bracket, provided that no name
contains these two characters. The command ends at the first closing bracket that is active in it.
The time contains no comma, so that it begins after the last one. What lies between is the ending.

If the checks of two reports are known to be the same, nothing has to be asked of the names.
-/

namespace CheckGate

/-- Two runs agree in everything that a report shows. -/
structure CheckRun.Alike (left right : CheckRun) : Prop where
  name : left.check.name = right.check.name
  program : left.check.command.program = right.check.command.program
  arguments : left.check.command.arguments = right.check.command.arguments
  ending : left.ending = right.ending
  time : left.elapsed.text = right.elapsed.text

namespace CheckRun.Alike

variable {left right : CheckRun}

theorem passed (alike : left.Alike right) : left.passed = right.passed := by
  simp only [CheckRun.passed, alike.ending]

theorem command (alike : left.Alike right) : left.check.command = right.check.command :=
  Command.eq_of_words_eq (by simp only [Command.words, alike.program, alike.arguments])

theorem check (alike : left.Alike right) : left.check = right.check := by
  change (⟨left.check.name, left.check.command⟩ : Check) = right.check
  rw [alike.name, alike.command]

theorem checks_and_endings_eq {left right : List CheckRun}
    (alike : List.Forall₂ CheckRun.Alike left right) :
    left.map CheckRun.check = right.map CheckRun.check ∧
      left.map CheckRun.ending = right.map CheckRun.ending := by
  induction alike with
  | nil => exact ⟨rfl, rfl⟩
  | cons firstAlike _ ih =>
      rcases ih with ⟨sameChecks, sameEndings⟩
      constructor
      · rw [List.map_cons, List.map_cons, firstAlike.check, sameChecks]
      · rw [List.map_cons, List.map_cons, firstAlike.ending, sameEndings]

end CheckRun.Alike

namespace RunReport

theorem comma_not_mem_time (elapsed : Elapsed) : ',' ∉ elapsed.text.toList := by
  have commaFree : ∀ number, ',' ∉ Nat.toDigits 10 number := Decimal.not_mem_toDigits rfl
  rw [Elapsed.toList_text]
  simp [commaFree]

theorem verdict_of_passed {run : CheckRun} (passed : run.passed = true) :
    verdict run = "passed in " ++ run.elapsed.text :=
  if_pos passed

theorem verdict_of_not_passed {run : CheckRun} (failed : ¬run.passed = true) :
    verdict run = "failed: " ++ run.ending.describe ++ ", after " ++ run.elapsed.text :=
  if_neg failed

theorem passed_iff_head?_verdict (run : CheckRun) :
    run.passed = true ↔ (verdict run).toList.head? = some 'p' := by
  by_cases passed : run.passed = true
  · simp [verdict_of_passed passed, passed]
  · simp [verdict_of_not_passed passed, passed]

theorem eq_of_verdict_eq {left right : CheckRun} (same : verdict left = verdict right) :
    left.ending = right.ending ∧ left.elapsed.text = right.elapsed.text := by
  have samePassed : left.passed = true ↔ right.passed = true := by
    rw [passed_iff_head?_verdict, passed_iff_head?_verdict, same]
  by_cases passed : left.passed = true
  · rw [verdict_of_passed passed, verdict_of_passed (samePassed.mp passed)] at same
    have leftSuccess := Ending.isSuccess_iff.mp passed
    have rightSuccess := Ending.isSuccess_iff.mp (samePassed.mp passed)
    exact ⟨leftSuccess.trans rightSuccess.symm, (String.append_right_inj "passed in ").mp same⟩
  · have rightFailed : ¬right.passed = true := fun rightPassed =>
      passed (samePassed.mpr rightPassed)
    rw [verdict_of_not_passed passed, verdict_of_not_passed rightFailed] at same
    have sameRest :
        left.ending.describe.toList ++ ',' :: (" after ".toList ++ left.elapsed.text.toList) =
          right.ending.describe.toList ++
            ',' :: (" after ".toList ++ right.elapsed.text.toList) := by
      simpa using congrArg String.toList same
    have cut := Delimiter.cut_last (by simp [comma_not_mem_time left.elapsed])
      (by simp [comma_not_mem_time right.elapsed]) sameRest
    have sameTime := List.append_cancel_left cut.2
    exact ⟨Ending.describe_injective (String.toList_injective cut.1),
      String.toList_injective sameTime⟩

/-- A name that does not contain what ends it in a report. -/
def NameEnds (name : String) : Prop :=
  ¬" (".toList <:+: name.toList

instance (name : String) : Decidable (NameEnds name) :=
  inferInstanceAs (Decidable (¬" (".toList <:+: name.toList))

theorem toList_runLine (run : CheckRun) :
    (runLine run).toList =
      heading.toList ++ (run.check.name.toList ++ ' ' :: '(' ::
        (run.check.command.shellLine.toList ++ ')' :: (' ' :: (verdict run).toList))) := by
  simp [runLine]

/-- A command ends at the first closing bracket that is active. -/
theorem eq_of_shellLine_append_eq {left right : Command} {leftRest rightRest : List Char}
    (same : left.shellLine.toList ++ ')' :: leftRest =
      right.shellLine.toList ++ ')' :: rightRest) :
    left = right ∧ leftRest = rightRest := by
  have free : ∀ words : List (List Char),
      (Shell.Region.outside, ')') ∉ Shell.Region.outside.scan (Shell.join words) :=
    Shell.Region.not_mem_scan_join rfl (by decide) (by decide) (by decide)
  simp only [Command.shellLine, String.toList_ofList] at same
  have cut := Shell.Region.cut_active (Shell.Region.after_join _) (Shell.Region.after_join _)
    (free _) (free _) same
  exact ⟨Command.eq_of_shellLine_eq (congrArg String.ofList cut.1), cut.2⟩

/-- A line determines all that it shows, if the check is known or the name ends where it should. -/
theorem alike_of_runLine_eq {left right : CheckRun}
    (readable : left.check = right.check ∨
      NameEnds left.check.name ∧ NameEnds right.check.name)
    (same : runLine left = runLine right) : left.Alike right := by
  have sameCharacters := congrArg String.toList same
  rw [toList_runLine, toList_runLine] at sameCharacters
  have sameText := List.append_cancel_left sameCharacters
  have sameParts : left.check.name = right.check.name ∧
      left.check.command = right.check.command ∧ verdict left = verdict right := by
    rcases readable with sameCheck | ⟨leftEnds, rightEnds⟩
    · rw [sameCheck] at sameText ⊢
      have sameVerdict := List.append_cancel_left sameText
      simp only [List.cons.injEq, true_and, List.append_cancel_left_eq] at sameVerdict
      exact ⟨rfl, rfl, String.toList_injective sameVerdict⟩
    · have nameCut := Delimiter.cut_pair (by decide) leftEnds rightEnds sameText
      have commandCut := eq_of_shellLine_append_eq nameCut.2
      exact ⟨String.toList_injective nameCut.1, commandCut.1,
        String.toList_injective (List.cons.inj commandCut.2).2⟩
  rcases sameParts with ⟨sameName, sameCommand, sameVerdict⟩
  have sameShown := eq_of_verdict_eq sameVerdict
  exact ⟨sameName, by rw [sameCommand], by rw [sameCommand], sameShown.1, sameShown.2⟩

theorem runLine_eq_of_alike {left right : CheckRun} (alike : left.Alike right) :
    runLine left = runLine right := by
  simp only [runLine, verdict, alike.passed, alike.name, alike.command, alike.ending, alike.time]

theorem alike_of_map_runLine_eq {left right : List CheckRun}
    (readable : left.map CheckRun.check = right.map CheckRun.check ∨
      ∀ run ∈ left ++ right, NameEnds run.check.name)
    (same : left.map runLine = right.map runLine) : List.Forall₂ CheckRun.Alike left right := by
  induction left generalizing right with
  | nil =>
      have rightNil : right = [] := by simpa using same.symm
      rw [rightNil]
      exact List.Forall₂.nil
  | cons first left ih =>
      cases right with
      | nil => cases same
      | cons second right =>
          simp only [List.map_cons, List.cons.injEq] at same
          rcases same with ⟨sameLine, sameLines⟩
          rcases readable with sameChecks | namesEnd
          · simp only [List.map_cons, List.cons.injEq] at sameChecks
            exact List.Forall₂.cons (alike_of_runLine_eq (Or.inl sameChecks.1) sameLine)
              (ih (Or.inl sameChecks.2) sameLines)
          · have firstEnds := namesEnd first (by simp)
            have secondEnds := namesEnd second (by simp)
            refine List.Forall₂.cons
              (alike_of_runLine_eq (Or.inr ⟨firstEnds, secondEnds⟩) sameLine)
              (ih (Or.inr ?_) sameLines)
            intro run runMem
            apply namesEnd run
            rcases List.mem_append.mp runMem with inLeft | inRight
            · simp [inLeft]
            · simp [inRight]

theorem map_runLine_eq_of_alike {left right : List CheckRun}
    (alike : List.Forall₂ CheckRun.Alike left right) : left.map runLine = right.map runLine := by
  induction alike with
  | nil => rfl
  | cons firstAlike _ ih => rw [List.map_cons, List.map_cons, runLine_eq_of_alike firstAlike, ih]

theorem lines_eq_of_alike {left right : Outcome}
    (alike : List.Forall₂ CheckRun.Alike left.runs right.runs) : lines left = lines right := by
  rcases CheckRun.Alike.checks_and_endings_eq alike with ⟨sameChecks, sameEndings⟩
  have sameTally := (Outcome.passed_and_tally_eq_of_endings_eq sameEndings).2
  have sameFailures := Outcome.failedNames_eq_of_endings_eq sameChecks sameEndings
  simp only [lines, totalsLine, map_runLine_eq_of_alike alike, sameTally, sameFailures]

/--
Two reports have the same lines exactly if their runs agree one by one in all that is shown,
provided that their checks are the same, or that every name ends where a reader takes it to end.
-/
theorem lines_eq_iff_runs_alike (left right : Outcome)
    (readable : left.runs.map CheckRun.check = right.runs.map CheckRun.check ∨
      ∀ run ∈ left.runs ++ right.runs, NameEnds run.check.name) :
    lines left = lines right ↔ List.Forall₂ CheckRun.Alike left.runs right.runs := by
  constructor
  · intro same
    have sameLines := List.append_inj_left' same rfl
    exact alike_of_map_runLine_eq readable sameLines
  · exact lines_eq_of_alike

/-- A run of a command that is quoted like the end of a line, and that fails for a given reason. -/
def misleadingRun (reason : String) : CheckRun where
  check := ⟨"lint", ⟨"a) passed in 0.0s", ["it's", ""]⟩⟩
  ending := .notStarted reason
  elapsed := .zero

/-- A reason that goes on like the time after it is told from the reason without it. -/
theorem lines_ne_of_reason_like_time :
    (∀ run ∈ [misleadingRun "x"] ++ [misleadingRun "x, after 0.0s"], NameEnds run.check.name) ∧
      lines ⟨[misleadingRun "x"]⟩ ≠ lines ⟨[misleadingRun "x, after 0.0s"]⟩ := by
  have namesEnd : ∀ run ∈ [misleadingRun "x"] ++ [misleadingRun "x, after 0.0s"],
      NameEnds run.check.name := by decide
  refine ⟨namesEnd, ?_⟩
  intro same
  have alike := (lines_eq_iff_runs_alike ⟨[misleadingRun "x"]⟩ ⟨[misleadingRun "x, after 0.0s"]⟩
    (Or.inr namesEnd)).mp same
  cases alike with
  | cons runsAlike _ =>
      have sameReason : "x" = "x, after 0.0s" := Ending.notStarted.inj runsAlike.ending
      exact absurd sameReason (by decide)

end RunReport

end CheckGate
