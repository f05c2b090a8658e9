import CheckGate.Proofs.Gate
import CheckGate.Proofs.Outcome
import CheckGate.RunReport

/-!
# Gates joined end to end

A gate can be cut anywhere between two of its checks. If the second part is run with what the first
part has left, the two parts come to the endings of the whole gate, whatever their clocks show. The
views of the outcomes are joined in their own ways: names follow one another, counts add up, and
the report of the whole keeps all lines about runs but has a last line of its own, which is not
made from the two last lines but from the sums of the counts and the names one after another.
-/

namespace CheckGate

namespace RunReport

/-- Two reports taken together keep their lines about runs and share a last line. -/
theorem lines_append (left right : Outcome) :
    lines (left ++ right) = (lines left).dropLast ++ (lines right).dropLast ++
      [heading ++ counts (left.tally + right.tally) ++
        failures (left.failedNames ++ right.failedNames)] := by
  have aboutRuns : ∀ outcome : Outcome, (lines outcome).dropLast = outcome.runs.map runLine := by
    intro outcome
    rw [lines, List.dropLast_concat]
  rw [aboutRuns, aboutRuns, lines, totalsLine, Outcome.runs_append, Outcome.tally_append,
    Outcome.failedNames_append, List.map_append]

end RunReport

namespace Gate

variable {State ClockState JointClockState : Type}

/-- The records of a gate with checks: its checks in order, with the endings of their commands. -/
theorem run_records (executor : Executor State) (clock : Clock ClockState) {checks : List Check}
    (nonempty : checks ≠ []) (state : State) (clockState : ClockState) :
    ∃ (outcome : Outcome) (clockFinal : ClockState),
      run (executor.timedBy clock) checks (state, clockState) =
        (.ok outcome, (executor.carryOut (checks.map Check.command) state).2, clockFinal) ∧
      outcome.runs.map CheckRun.check = checks ∧
      outcome.runs.map CheckRun.ending =
        (executor.carryOut (checks.map Check.command) state).1 := by
  have cameTo := (executor.timedBy_shows clock).runAll checks (state, clockState)
  have sameChecks := runAll_check (executor.timedBy clock) checks (state, clockState)
  rw [run_of_ne_nil _ nonempty, cameTo]
  exact ⟨_, _, rfl, sameChecks, rfl⟩

/--
Running a gate as a whole comes to the same as running it in two parts, the second one on what the
first one has left, whatever their clocks show. The views and the report of two outcomes taken
together are made from those of the two.
-/
theorem run_of_joined_checks (executor : Executor State) (clock : Clock ClockState)
    (jointClock : Clock JointClockState) :
    (∀ (first second : List Check) (state : State) (clockState laterClockState : ClockState)
        (jointClockState : JointClockState), first ≠ [] → second ≠ [] →
      ∃ (earlier later joint : Outcome) (middle final : State) (clockMiddle clockFinal : ClockState)
        (jointClockFinal : JointClockState),
        run (executor.timedBy clock) first (state, clockState) =
          (.ok earlier, middle, clockMiddle) ∧
        run (executor.timedBy clock) second (middle, laterClockState) =
          (.ok later, final, clockFinal) ∧
        run (executor.timedBy jointClock) (first ++ second) (state, jointClockState) =
          (.ok joint, final, jointClockFinal) ∧
        joint.runs.map CheckRun.check = (earlier ++ later).runs.map CheckRun.check ∧
        joint.runs.map CheckRun.ending =
          earlier.runs.map CheckRun.ending ++ later.runs.map CheckRun.ending ∧
        joint.passed = (earlier ++ later).passed ∧
        joint.failedNames = (earlier ++ later).failedNames ∧
        joint.tally = (earlier ++ later).tally) ∧
    ∀ left right : Outcome,
      (left ++ right).runs = left.runs ++ right.runs ∧
      (left ++ right).passed = (left.passed && right.passed) ∧
      (left ++ right).failedNames = left.failedNames ++ right.failedNames ∧
      (left ++ right).tally.total = left.tally.total + right.tally.total ∧
      (left ++ right).tally.passed = left.tally.passed + right.tally.passed ∧
      (left ++ right).tally.failed = left.tally.failed + right.tally.failed ∧
      RunReport.lines (left ++ right) =
        (RunReport.lines left).dropLast ++ (RunReport.lines right).dropLast ++
          [RunReport.heading ++ RunReport.counts (left.tally + right.tally) ++
            RunReport.failures (left.failedNames ++ right.failedNames)] := by
  constructor
  · intro first second state clockState laterClockState jointClockState firstNonempty secondNonempty
    have jointNonempty : first ++ second ≠ [] := List.append_ne_nil_of_left_ne_nil firstNonempty _
    rcases run_records executor clock firstNonempty state clockState with
      ⟨earlier, clockMiddle, ranFirst, firstChecks, firstEndings⟩
    rcases run_records executor clock secondNonempty _ laterClockState with
      ⟨later, clockFinal, ranSecond, secondChecks, secondEndings⟩
    rcases run_records executor jointClock jointNonempty state jointClockState with
      ⟨joint, jointClockFinal, ranJoint, jointChecks, jointEndings⟩
    rw [List.map_append, executor.carryOut_append] at ranJoint jointEndings
    have sameChecks : joint.runs.map CheckRun.check =
        (earlier ++ later).runs.map CheckRun.check := by
      rw [jointChecks, Outcome.runs_append, List.map_append, firstChecks, secondChecks]
    have sameEndings : joint.runs.map CheckRun.ending =
        (earlier ++ later).runs.map CheckRun.ending := by
      rw [jointEndings, Outcome.runs_append, List.map_append, firstEndings, secondEndings]
    have sameViews := Outcome.passed_and_tally_eq_of_endings_eq sameEndings
    have sameNames := Outcome.failedNames_eq_of_endings_eq sameChecks sameEndings
    exact ⟨earlier, later, joint, _, _, clockMiddle, clockFinal, jointClockFinal, ranFirst,
      ranSecond, ranJoint, sameChecks, sameEndings.trans List.map_append, sameViews.1, sameNames,
      sameViews.2⟩
  · intro left right
    have tally := Outcome.tally_append left right
    exact ⟨rfl, Outcome.passed_append left right, Outcome.failedNames_append left right,
      congrArg Tally.total tally, congrArg Tally.passed tally, congrArg Tally.failed tally,
      RunReport.lines_append left right⟩

end Gate

end CheckGate
