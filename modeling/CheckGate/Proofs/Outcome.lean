import CheckGate.Outcome
import CheckGate.Proofs.Ending
import Mathlib.Data.List.Basic

/-!
# The views of an outcome agree

Whether all runs passed, the names of the failed checks and the counts are computed one apart from
the other. Each of them tells whether there was a failure, and they tell the same. The names are
those of the runs at the indices where a run did not exit with zero, in the order of the indices.
-/

namespace CheckGate

/-- The counts of two lists of runs taken together. -/
def Tally.add (first second : Tally) : Tally where
  total := first.total + second.total
  passed := first.passed + second.passed
  failed := first.failed + second.failed

instance : Add Tally := ⟨Tally.add⟩

theorem CheckRun.passed_iff {run : CheckRun} : run.passed = true ↔ run.ending = .exited 0 :=
  Ending.isSuccess_iff

namespace Outcome

theorem passed_iff (outcome : Outcome) :
    outcome.passed = true ↔ ∀ run ∈ outcome.runs, run.passed = true := by
  simp only [passed, List.all_eq_true]

theorem failedNames_eq_nil_iff (outcome : Outcome) :
    outcome.failedNames = [] ↔ outcome.passed = true := by
  rw [passed_iff]
  simp [failedNames, List.filter_eq_nil_iff]

theorem tally_passed_eq_total_iff (outcome : Outcome) :
    outcome.tally.passed = outcome.tally.total ↔ outcome.passed = true := by
  rw [passed_iff]
  simp only [tally]
  exact List.countP_eq_length

theorem tally_passed_le_total (outcome : Outcome) :
    outcome.tally.passed ≤ outcome.tally.total := by
  simp only [tally]
  exact List.countP_le_length

theorem tally_failed (outcome : Outcome) :
    outcome.tally.failed = outcome.tally.total - outcome.tally.passed := rfl

theorem tally_failed_eq_zero_iff (outcome : Outcome) :
    outcome.tally.failed = 0 ↔ outcome.passed = true := by
  rw [← tally_passed_eq_total_iff, tally_failed]
  have bounded := tally_passed_le_total outcome
  omega

theorem tally_passed_add_failed (outcome : Outcome) :
    outcome.tally.passed + outcome.tally.failed = outcome.tally.total := by
  have bounded := tally_passed_le_total outcome
  rw [tally_failed]
  omega

theorem tally_failed_eq_length_failedNames (outcome : Outcome) :
    outcome.tally.failed = outcome.failedNames.length := by
  have split : outcome.runs.length =
      outcome.runs.countP CheckRun.passed + outcome.runs.countP fun run => !run.passed := by
    simpa using List.length_eq_countP_add_countP CheckRun.passed (l := outcome.runs)
  have named : outcome.failedNames.length = outcome.runs.countP fun run => !run.passed := by
    rw [failedNames, List.length_map, ← List.countP_eq_length_filter]
  rw [named, tally_failed]
  simp only [tally]
  omega

theorem filterMap_findIdxs (holds : CheckRun → Bool) (runs : List CheckRun) :
    (runs.findIdxs holds).filterMap (fun index => runs[index]?) = runs.filter holds := by
  induction runs with
  | nil => rfl
  | cons run runs ih =>
      have later : (runs.findIdxs holds 1).filterMap (fun index => (run :: runs)[index]?) =
          runs.filter holds := by
        rw [List.findIdxs_start, List.filterMap_map, ← ih]
        rfl
      rw [List.findIdxs_cons, List.filter_cons]
      split
      · rw [List.filterMap_cons_some (by rfl)]
        exact congrArg (List.cons run) later
      · exact later

theorem failedNames_eq_filterMap (outcome : Outcome) :
    outcome.failedNames =
      (outcome.runs.findIdxs fun run => !run.passed).filterMap fun index =>
        outcome.runs[index]?.map fun run => run.check.name := by
  rw [failedNames, ← filterMap_findIdxs, List.map_filterMap]

theorem count_failedNames (outcome : Outcome) (name : String) :
    outcome.failedNames.count name =
      outcome.runs.countP fun run => decide (run.check.name = name ∧ run.ending ≠ .exited 0) := by
  rw [failedNames, List.count, List.countP_map, List.countP_filter]
  apply List.countP_congr
  intro run _
  simp [← CheckRun.passed_iff]

@[simp]
theorem runs_append (left right : Outcome) : (left ++ right).runs = left.runs ++ right.runs := rfl

theorem passed_append (left right : Outcome) :
    (left ++ right).passed = (left.passed && right.passed) := by
  simp [passed]

theorem failedNames_append (left right : Outcome) :
    (left ++ right).failedNames = left.failedNames ++ right.failedNames := by
  simp [failedNames]

theorem tally_append (left right : Outcome) : (left ++ right).tally = left.tally + right.tally := by
  have total : (left ++ right).tally.total = left.tally.total + right.tally.total := by
    simp [tally]
  have passed : (left ++ right).tally.passed = left.tally.passed + right.tally.passed := by
    simp [tally]
  have failed : (left ++ right).tally.failed = left.tally.failed + right.tally.failed := by
    have leftSum := tally_passed_add_failed left
    have rightSum := tally_passed_add_failed right
    have sum := tally_passed_add_failed (left ++ right)
    omega
  change (left ++ right).tally = ⟨_, _, _⟩
  rw [← total, ← passed, ← failed]

/-- The checks that were run with the endings that they came to, but without the times. -/
def findings (outcome : Outcome) : List (Check × Ending) :=
  outcome.runs.map fun run => (run.check, run.ending)

theorem findings_eq_zip (outcome : Outcome) :
    outcome.findings =
      (outcome.runs.map CheckRun.check).zip (outcome.runs.map CheckRun.ending) := by
  simp [findings, List.zip_map']

theorem failedNames_eq_map_findings (outcome : Outcome) :
    outcome.failedNames =
      (outcome.findings.filter fun finding => !finding.2.isSuccess).map
        fun finding => finding.1.name := by
  simp only [findings, List.filter_map, List.map_map]
  rfl

/-- The verdict and the counts look only at the endings of the runs. -/
theorem passed_and_tally_eq_of_endings_eq {left right : Outcome}
    (sameEndings : left.runs.map CheckRun.ending = right.runs.map CheckRun.ending) :
    left.passed = right.passed ∧ left.tally = right.tally := by
  have passedByEnding : CheckRun.passed = Ending.isSuccess ∘ CheckRun.ending := rfl
  have sameLength : left.runs.length = right.runs.length := by
    simpa using congrArg List.length sameEndings
  constructor
  · simp only [passed, passedByEnding, ← List.all_map, sameEndings]
  · simp only [tally, passedByEnding, ← List.countP_map, sameEndings, sameLength]

theorem failedNames_eq_of_endings_eq {left right : Outcome}
    (sameChecks : left.runs.map CheckRun.check = right.runs.map CheckRun.check)
    (sameEndings : left.runs.map CheckRun.ending = right.runs.map CheckRun.ending) :
    left.failedNames = right.failedNames := by
  simp only [failedNames_eq_map_findings, findings_eq_zip, sameChecks, sameEndings]

theorem passed_and_tally_eq_of_length_eq {left right : Outcome}
    (sameLength : left.runs.length = right.runs.length)
    (sameFailures : left.failedNames.length = right.failedNames.length) :
    left.passed = right.passed ∧ left.tally = right.tally := by
  have total : left.tally.total = right.tally.total := sameLength
  have failed : left.tally.failed = right.tally.failed := by
    simpa only [tally_failed_eq_length_failedNames] using sameFailures
  have leftSum := tally_passed_add_failed left
  have rightSum := tally_passed_add_failed right
  have passed : left.tally.passed = right.tally.passed := by omega
  constructor
  · apply Bool.eq_iff_iff.mpr
    simp only [← tally_failed_eq_zero_iff, failed]
  · calc
      left.tally = ⟨left.tally.total, left.tally.passed, left.tally.failed⟩ := rfl
      _ = ⟨right.tally.total, right.tally.passed, right.tally.failed⟩ := by
        rw [total, passed, failed]
      _ = right.tally := rfl

/-- Findings in another order give the same verdict, the same counts and the same names. -/
theorem views_of_findings_perm {left right : Outcome}
    (reordered : left.findings.Perm right.findings) :
    left.passed = right.passed ∧ left.tally = right.tally ∧
      left.failedNames.Perm right.failedNames := by
  have sameNames : left.failedNames.Perm right.failedNames := by
    simp only [failedNames_eq_map_findings]
    exact (reordered.filter _).map _
  have sameLength : left.runs.length = right.runs.length := by
    simpa [findings] using reordered.length_eq
  have sameViews := passed_and_tally_eq_of_length_eq sameLength sameNames.length_eq
  exact ⟨sameViews.1, sameViews.2, sameNames⟩

theorem failedNames_reverse {left right : Outcome}
    (reversed : left.findings = right.findings.reverse) :
    left.failedNames = right.failedNames.reverse := by
  simp only [failedNames_eq_map_findings, reversed, List.filter_reverse, List.map_reverse]

/-- Whatever does not look at the times of runs is the same for all times. -/
theorem map_retimeRuns {Seen : Type} {view : CheckRun → Seen}
    (untimed : ∀ run elapsed, view { run with elapsed } = view run) (times : List Elapsed)
    (runs : List CheckRun) : (retimeRuns times runs).map view = runs.map view := by
  induction times, runs using retimeRuns.induct with
  | case1 => rfl
  | case2 run runs ih => rw [retimeRuns, List.map_cons, List.map_cons, untimed, ih]
  | case3 time times run runs ih => rw [retimeRuns, List.map_cons, List.map_cons, untimed, ih]

theorem findings_retime (outcome : Outcome) (times : List Elapsed) :
    (outcome.retime times).findings = outcome.findings :=
  map_retimeRuns (fun _ _ => rfl) times outcome.runs

/-- Given times change neither the verdict nor the counts nor the names of the failed checks. -/
theorem views_retime (outcome : Outcome) (times : List Elapsed) :
    (outcome.retime times).passed = outcome.passed ∧
      (outcome.retime times).tally = outcome.tally ∧
      (outcome.retime times).failedNames = outcome.failedNames := by
  have sameFindings := findings_retime outcome times
  have sameViews := views_of_findings_perm (List.Perm.of_eq sameFindings)
  refine ⟨sameViews.1, sameViews.2.1, ?_⟩
  simp only [failedNames_eq_map_findings, sameFindings]

/--
The verdict, the names of the failed checks and the counts tell of the same failures. The names are
taken, in order, at exactly the indices of the runs that did not exit with zero.
-/
theorem views_tell_of_the_same_failures (outcome : Outcome) :
    (outcome.passed = true ↔ ∀ run ∈ outcome.runs, run.ending = .exited 0) ∧
    (outcome.passed = true ↔ outcome.failedNames = []) ∧
    (outcome.passed = true ↔ outcome.tally.failed = 0) ∧
    (outcome.passed = true ↔ outcome.tally.passed = outcome.tally.total) ∧
    outcome.tally.total = outcome.runs.length ∧
    outcome.tally.passed ≤ outcome.tally.total ∧
    outcome.tally.passed + outcome.tally.failed = outcome.tally.total ∧
    outcome.tally.failed = outcome.failedNames.length ∧
    (∃ indices : List Nat,
      indices.Pairwise (· < ·) ∧
      (∀ index, index ∈ indices ↔
        ∃ run, outcome.runs[index]? = some run ∧ run.ending ≠ .exited 0) ∧
      outcome.failedNames = indices.filterMap fun index =>
        outcome.runs[index]?.map fun run => run.check.name) ∧
    ∀ name, outcome.failedNames.count name =
      outcome.runs.countP fun run => decide (run.check.name = name ∧ run.ending ≠ .exited 0) := by
  refine ⟨?_, (failedNames_eq_nil_iff outcome).symm, (tally_failed_eq_zero_iff outcome).symm,
    (tally_passed_eq_total_iff outcome).symm, rfl, tally_passed_le_total outcome,
    tally_passed_add_failed outcome, tally_failed_eq_length_failedNames outcome, ?_,
    count_failedNames outcome⟩
  · simp only [passed_iff, CheckRun.passed_iff]
  · refine ⟨outcome.runs.findIdxs fun run => !run.passed, List.pairwise_findIdxs, ?_,
      failedNames_eq_filterMap outcome⟩
    intro index
    rw [List.mem_findIdxs_iff_exists_getElem_pos]
    simp [List.getElem?_eq_some_iff, ← CheckRun.passed_iff]

end Outcome

end CheckGate
