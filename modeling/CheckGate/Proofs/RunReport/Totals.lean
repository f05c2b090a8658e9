import CheckGate.Proofs.Delimiter
import CheckGate.Proofs.Outcome
import CheckGate.RunReport
import Mathlib.Tactic.ByContra

/-!
# What the last line of a report tells

The last line of a report counts the failed checks and goes on with their names, in brackets, if
there are any. A reader who looks for success only has to look at how the line ends.

A reader who looks for more can have all of it. Each count ends at the first blank after it, so the
counts can be read from the front whatever follows them. They tell how many names there are, and
the names can then be cut at the commas with a blank between them, provided that no name has such a
comma of its own. A single comma at the end of a name, or a blank at its beginning, does no harm.
-/

namespace CheckGate.RunReport

/-- A last line ends with the count of no failed checks, so that it names none of them either. -/
def ReportsNoFailure (line : String) : Prop :=
  ", 0 failed".toList <:+ line.toList

theorem failures_nil : failures [] = "" := rfl

theorem failures_of_ne_nil {names : List String} (nonempty : names ≠ []) :
    failures names = " (" ++ ", ".intercalate names ++ ")" :=
  if_neg (by simpa using nonempty)

theorem totalsLine_of_noneFailed {outcome : Outcome} (noNames : outcome.failedNames = []) :
    totalsLine outcome = heading ++ counts outcome.tally := by
  rw [totalsLine, noNames, failures_nil, String.append_empty]

theorem totalsLine_of_someFailed {outcome : Outcome} (someNames : outcome.failedNames ≠ []) :
    totalsLine outcome =
      heading ++ counts outcome.tally ++ " (" ++ ", ".intercalate outcome.failedNames ++ ")" := by
  simp only [totalsLine, failures_of_ne_nil someNames, String.append_assoc]

theorem reportsNoFailure_totalsLine_iff (outcome : Outcome) :
    ReportsNoFailure (totalsLine outcome) ↔ outcome.passed = true := by
  constructor
  · rintro ⟨before, lineEnds⟩
    rw [← Outcome.failedNames_eq_nil_iff]
    by_contra named
    have bracketed : (totalsLine outcome).toList =
        (heading ++ counts outcome.tally ++ " (" ++
          ", ".intercalate outcome.failedNames).toList ++ [')'] := by
      rw [totalsLine_of_someFailed named, String.toList_append]
      rfl
    rw [bracketed] at lineEnds
    have lastCharacter := congrArg List.getLast? lineEnds
    rw [List.getLast?_concat] at lastCharacter
    simp at lastCharacter
  · intro passed
    have noNames := (Outcome.failedNames_eq_nil_iff outcome).mpr passed
    have noFailures := (Outcome.tally_failed_eq_zero_iff outcome).mpr passed
    rw [ReportsNoFailure, totalsLine_of_noneFailed noNames, counts, noFailures]
    generalize outcome.tally.total = total
    generalize outcome.tally.passed = passed
    refine ⟨(heading ++ (total.repr ++ (if total = 1 then " check, " else " checks, ") ++
      passed.repr ++ " passed")).toList, ?_⟩
    simp

theorem toList_counts (tally : Tally) :
    (counts tally).toList =
      Nat.toDigits 10 tally.total ++ ' ' ::
        ((if tally.total = 1 then "check, " else "checks, ").toList ++
          (Nat.toDigits 10 tally.passed ++ ' ' :: ("passed, ".toList ++
            (Nat.toDigits 10 tally.failed ++ ' ' :: "failed".toList)))) := by
  unfold counts
  split <;> simp

/-- A number ends at the first blank after it. -/
theorem eq_of_digits_append_eq {left right : Nat} {leftRest rightRest : List Char}
    (same : Nat.toDigits 10 left ++ ' ' :: leftRest = Nat.toDigits 10 right ++ ' ' :: rightRest) :
    left = right ∧ leftRest = rightRest := by
  have blankFree : ∀ number, ' ' ∉ Nat.toDigits 10 number := Decimal.not_mem_toDigits rfl
  have cut := Delimiter.cut_first (blankFree left) (blankFree right) same
  refine ⟨?_, cut.2⟩
  rw [← Nat.ofDigitChars_ten_toDigits (n := left), cut.1, Nat.ofDigitChars_ten_toDigits]

/-- The counts can be read from the front of a text, whatever comes after them. -/
theorem eq_of_counts_append_eq {left right : Tally} {leftRest rightRest : List Char}
    (same : (counts left).toList ++ leftRest = (counts right).toList ++ rightRest) :
    left = right ∧ leftRest = rightRest := by
  simp only [toList_counts, List.append_assoc, List.cons_append] at same
  rcases eq_of_digits_append_eq same with ⟨sameTotal, afterTotal⟩
  rw [sameTotal] at afterTotal
  rcases eq_of_digits_append_eq (List.append_cancel_left afterTotal) with ⟨samePassed, afterPassed⟩
  rcases eq_of_digits_append_eq (List.append_cancel_left afterPassed) with ⟨sameFailed, afterFailed⟩
  refine ⟨?_, List.append_cancel_left afterFailed⟩
  change (⟨left.total, left.passed, left.failed⟩ : Tally) = right
  rw [sameTotal, samePassed, sameFailed]

/-- A name in which nothing can be taken for the end of a name. -/
def NameSeparates (name : String) : Prop :=
  ¬", ".toList <:+: name.toList

instance (name : String) : Decidable (NameSeparates name) :=
  inferInstanceAs (Decidable (¬", ".toList <:+: name.toList))

/-- As many names as are known to be there can be read from their brackets. -/
theorem eq_of_failures_eq {left right : List String}
    (leftSeparate : ∀ name ∈ left, NameSeparates name)
    (rightSeparate : ∀ name ∈ right, NameSeparates name)
    (sameLength : left.length = right.length) (same : failures left = failures right) :
    left = right := by
  by_cases noNames : left = []
  · subst noNames
    exact (List.length_eq_zero_iff.mp sameLength.symm).symm
  · have someNames : right ≠ [] := by
      rintro rfl
      exact noNames (List.length_eq_zero_iff.mp sameLength)
    have sameParts : [',', ' '].intercalate (left.map String.toList) =
        [',', ' '].intercalate (right.map String.toList) := by
      rw [failures_of_ne_nil noNames, failures_of_ne_nil someNames] at same
      simpa using congrArg String.toList same
    have separate : ∀ {names : List String}, (∀ name ∈ names, NameSeparates name) →
        ∀ part ∈ names.map String.toList, ¬[',', ' '] <:+: part := by
      intro names namesSeparate part partMem
      rcases List.mem_map.mp partMem with ⟨name, nameMem, rfl⟩
      exact namesSeparate name nameMem
    have sameTexts := Delimiter.parts_unique (by decide) (separate leftSeparate)
      (separate rightSeparate) (by simpa using sameLength) sameParts
    exact List.map_injective_iff.mpr (fun _ _ => String.toList_injective) sameTexts

/-- The last line determines the counts and, with separate names, all names of failed checks. -/
theorem eq_of_totalsLine_eq {left right : Outcome}
    (leftSeparate : ∀ name ∈ left.failedNames, NameSeparates name)
    (rightSeparate : ∀ name ∈ right.failedNames, NameSeparates name)
    (same : totalsLine left = totalsLine right) :
    left.tally = right.tally ∧ left.failedNames = right.failedNames := by
  have sameText : (counts left.tally).toList ++ (failures left.failedNames).toList =
      (counts right.tally).toList ++ (failures right.failedNames).toList := by
    simpa [totalsLine, String.append_assoc] using congrArg String.toList same
  rcases eq_of_counts_append_eq sameText with ⟨sameTally, sameFailures⟩
  have sameLength : left.failedNames.length = right.failedNames.length := by
    rw [← Outcome.tally_failed_eq_length_failedNames, sameTally,
      Outcome.tally_failed_eq_length_failedNames]
  exact ⟨sameTally, eq_of_failures_eq leftSeparate rightSeparate sameLength
    (String.toList_injective sameFailures)⟩

theorem getLast?_lines (outcome : Outcome) :
    (lines outcome).getLast? = some (totalsLine outcome) := by
  simp [lines]

/-- The last line ends with the counts or goes on in brackets, as the count of failures says. -/
theorem totalsLine_brackets (outcome : Outcome) :
    (totalsLine outcome = heading ++ counts outcome.tally ↔ outcome.tally.failed = 0) ∧
    (totalsLine outcome = heading ++ counts outcome.tally ++ " (" ++
      ", ".intercalate outcome.failedNames ++ ")" ↔ outcome.tally.failed ≠ 0) := by
  have longer : ∀ front names : String, front ++ " (" ++ names ++ ")" ≠ front := by
    intro front names same
    simpa using congrArg (fun text => text.toList.length) same
  have noneFailed : outcome.tally.failed = 0 ↔ outcome.failedNames = [] := by
    rw [Outcome.tally_failed_eq_length_failedNames, List.length_eq_zero_iff]
  rw [ne_eq, noneFailed]
  by_cases noNames : outcome.failedNames = []
  · rw [totalsLine_of_noneFailed noNames]
    exact ⟨iff_of_true rfl noNames,
      iff_of_false (longer _ _).symm (fun someNames => someNames noNames)⟩
  · rw [totalsLine_of_someFailed noNames]
    exact ⟨iff_of_false (longer _ _) noNames, iff_of_true rfl noNames⟩

/--
If no name of a failed check has a comma with a blank after it, then two reports have the same last
line exactly if they have the same counts and the same names of failed checks, in the same order.
-/
theorem lastLine_eq_iff (left right : Outcome)
    (separate : ∀ name ∈ left.failedNames ++ right.failedNames, NameSeparates name) :
    ((lines left).getLast? = (lines right).getLast? ↔
      left.tally = right.tally ∧ left.failedNames = right.failedNames) ∧
    ∀ outcome : Outcome, ∃ lastLine, (lines outcome).getLast? = some lastLine ∧
      (lastLine = heading ++ counts outcome.tally ↔ outcome.tally.failed = 0) ∧
      (lastLine = heading ++ counts outcome.tally ++ " (" ++
        ", ".intercalate outcome.failedNames ++ ")" ↔ outcome.tally.failed ≠ 0) := by
  constructor
  · rw [getLast?_lines, getLast?_lines, Option.some.injEq]
    constructor
    · apply eq_of_totalsLine_eq
      · intro name nameMem
        exact separate name (List.mem_append_left _ nameMem)
      · intro name nameMem
        exact separate name (List.mem_append_right _ nameMem)
    · rintro ⟨sameTally, sameNames⟩
      rw [totalsLine, totalsLine, sameTally, sameNames]
  · intro outcome
    exact ⟨totalsLine outcome, getLast?_lines outcome, totalsLine_brackets outcome⟩

/-- A run of a check with the given name that failed. -/
def failedRun (name : String) : CheckRun where
  check := ⟨name, ⟨"false", []⟩⟩
  ending := .exited 1
  elapsed := .zero

/-- A comma at the end of a name is told from one at the beginning of the next name. -/
theorem lastLine_ne_of_comma_in_name :
    let left : Outcome := ⟨[failedRun "a,", failedRun "b", failedRun ""]⟩
    let right : Outcome := ⟨[failedRun "a", failedRun ",b", failedRun ""]⟩
    (∀ name ∈ left.failedNames ++ right.failedNames, NameSeparates name) ∧
      (lines left).getLast? ≠ (lines right).getLast? := by
  intro left right
  have separate : ∀ name ∈ left.failedNames ++ right.failedNames, NameSeparates name := by decide
  refine ⟨separate, ?_⟩
  intro same
  have sameNames := ((lastLine_eq_iff left right separate).1.mp same).2
  exact absurd sameNames (by decide)

end CheckGate.RunReport
