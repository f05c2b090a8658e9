import CheckGate.Gate
import CheckGate.Proofs.Executor

/-!
# Runs of a gate

The runs of a gate follow its checks one by one, and the endings are those that the machine's
executor comes to when it carries out the commands in order, whatever the clock does meanwhile.
Nothing in the loop looks at an ending, so no ending changes what is carried out next.

The main statement speaks about an executor with a clock beside it, for every executor, every
clock and every list of checks. That no command is carried out twice or left out is read off the
list of calls that `Executor.recorded` keeps.
-/

namespace CheckGate

/--
A machine whose commands act on what is seen through `view` as an executor does, and whose clock
leaves what is seen alone.
-/
structure Machine.Shows {State Visible : Type} (machine : Machine State)
    (executor : Executor Visible) (view : State → Visible) : Prop where
  /-- A reading of the clock changes nothing that is seen. -/
  view_now : ∀ state, view (machine.now state).2 = view state
  /-- A command comes to the same ending, and leaves the same to be seen. -/
  execute_view : ∀ command state,
    executor command (view state) =
      ((machine.execute command state).1, view (machine.execute command state).2)

namespace Executor

variable {State ClockState : Type}

theorem timedBy_shows (executor : Executor State) (clock : Clock ClockState) :
    (executor.timedBy clock).Shows executor Prod.fst where
  view_now _ := rfl
  execute_view _ _ := rfl

end Executor

namespace Gate

variable {State : Type}

@[simp]
theorem runAll_nil (machine : Machine State) (state : State) :
    runAll machine [] state = ([], state) := rfl

@[simp]
theorem runAll_cons (machine : Machine State) (check : Check) (checks : List Check)
    (state : State) :
    runAll machine (check :: checks) state =
      ((runCheck machine check state).1 ::
          (runAll machine checks (runCheck machine check state).2).1,
        (runAll machine checks (runCheck machine check state).2).2) :=
  Sequence.mapM_cons (runCheck machine) check checks state

/-- The endings of the runs of a gate, of which there are none if it refused to run. -/
def endings : Except Refusal Outcome → List Ending
  | .ok outcome => outcome.runs.map CheckRun.ending
  | .error _ => []

theorem run_nil (machine : Machine State) (state : State) :
    run machine [] state = (.error .noChecks, state) := rfl

theorem run_of_ne_nil (machine : Machine State) {checks : List Check} (nonempty : checks ≠ [])
    (state : State) :
    run machine checks state =
      (.ok ⟨(runAll machine checks state).1⟩, (runAll machine checks state).2) := by
  unfold run
  rw [if_neg (by simpa using nonempty)]
  rfl

theorem run_eq_error_iff (machine : Machine State) (checks : List Check) (state : State) :
    (∃ refusal, (run machine checks state).1 = .error refusal) ↔ checks = [] := by
  constructor
  · rintro ⟨refusal, refused⟩
    cases checks with
    | nil => rfl
    | cons check checks =>
        rw [run_of_ne_nil machine (List.cons_ne_nil check checks)] at refused
        cases refused
  · rintro rfl
    exact ⟨.noChecks, rfl⟩

theorem runAll_check (machine : Machine State) (checks : List Check) (state : State) :
    (runAll machine checks state).1.map CheckRun.check = checks := by
  induction checks generalizing state with
  | nil => rfl
  | cons check checks ih =>
      rw [runAll_cons, List.map_cons, ih]
      rfl

end Gate

namespace Machine.Shows

variable {State Visible : Type} {machine : Machine State} {executor : Executor Visible}
  {view : State → Visible}

/-- One check comes to the ending of its command, with the two readings of the clock unseen. -/
theorem runCheck (shows : machine.Shows executor view) (check : Check) (state : State) :
    executor check.command (view state) =
      ((Gate.runCheck machine check state).1.ending,
        view (Gate.runCheck machine check state).2) := by
  have started : view (machine.now state).2 = view state := shows.view_now state
  rw [← started, shows.execute_view]
  exact congrArg (Prod.mk _) (shows.view_now _).symm

theorem runAll (shows : machine.Shows executor view) (checks : List Check) (state : State) :
    executor.carryOut (checks.map Check.command) (view state) =
      ((Gate.runAll machine checks state).1.map CheckRun.ending,
        view (Gate.runAll machine checks state).2) := by
  induction checks generalizing state with
  | nil => rfl
  | cons check checks ih =>
      rw [List.map_cons, Executor.carryOut_cons, Gate.runAll_cons, shows.runCheck check, ih]
      rfl

theorem runAll_at (shows : machine.Shows executor view) (checks : List Check) (state : State)
    {index : Nat} (inRange : index < checks.length) :
    ∃ run, (Gate.runAll machine checks state).1[index]? = some run ∧ run.check = checks[index] ∧
      executor checks[index].command
          (executor.stateAt (checks.map Check.command) (view state) index) =
        (run.ending, executor.stateAt (checks.map Check.command) (view state) (index + 1)) := by
  have endings := shows.runAll checks state
  have sameChecks := Gate.runAll_check machine checks state
  have commandInRange : index < (checks.map Check.command).length := by simpa using inRange
  rcases executor.carryOut_at _ (view state) index commandInRange with ⟨ending, found, left⟩
  rw [endings, List.getElem?_map, Option.map_eq_some_iff] at found
  rcases found with ⟨run, found, rfl⟩
  refine ⟨run, found, ?_, ?_⟩
  · have sameCheck : checks[index]? = some run.check := by
      rw [← sameChecks, List.getElem?_map, found]
      rfl
    exact (List.getElem_eq_iff inRange).mpr sameCheck |>.symm
  · simpa using left

theorem view_runAll (shows : machine.Shows executor view) (checks : List Check) (state : State) :
    view (Gate.runAll machine checks state).2 =
      executor.stateAt (checks.map Check.command) (view state) checks.length := by
  rw [executor.stateAt_of_length_le (by simp), shows.runAll checks state]

/-- A gate comes to the endings of its commands; one that refuses to run carries out none. -/
theorem run (shows : machine.Shows executor view) (checks : List Check) (state : State) :
    executor.carryOut (checks.map Check.command) (view state) =
      (Gate.endings (Gate.run machine checks state).1,
        view (Gate.run machine checks state).2) := by
  cases checks with
  | nil => rfl
  | cons check checks =>
      rw [Gate.run_of_ne_nil machine (List.cons_ne_nil check checks)]
      exact shows.runAll (check :: checks) state

end Machine.Shows

namespace Gate

variable {State ClockState : Type}

/-- A gate on an executor that records its calls runs as on the executor itself. -/
theorem runAll_recorded (executor : Executor State) (clock : Clock ClockState)
    (checks : List Check) (state : State) (given : List Command) (clockState : ClockState) :
    runAll (executor.recorded.timedBy clock) checks ((state, given), clockState) =
      ((runAll (executor.timedBy clock) checks (state, clockState)).1,
        ((runAll (executor.timedBy clock) checks (state, clockState)).2.1,
          given ++ checks.map Check.command),
        (runAll (executor.timedBy clock) checks (state, clockState)).2.2) := by
  induction checks generalizing state given clockState with
  | nil => simp
  | cons check checks ih =>
      have first :
          runCheck (executor.recorded.timedBy clock) check ((state, given), clockState) =
            ((runCheck (executor.timedBy clock) check (state, clockState)).1,
              ((runCheck (executor.timedBy clock) check (state, clockState)).2.1,
                given ++ [check.command]),
              (runCheck (executor.timedBy clock) check (state, clockState)).2.2) := rfl
      simp only [runAll_cons, first, ih, List.map_cons, List.append_assoc, List.singleton_append]

theorem run_recorded (executor : Executor State) (clock : Clock ClockState)
    (checks : List Check) (state : State) (given : List Command) (clockState : ClockState) :
    run (executor.recorded.timedBy clock) checks ((state, given), clockState) =
      ((run (executor.timedBy clock) checks (state, clockState)).1,
        ((run (executor.timedBy clock) checks (state, clockState)).2.1,
          given ++ checks.map Check.command),
        (run (executor.timedBy clock) checks (state, clockState)).2.2) := by
  cases checks with
  | nil => simp [run_nil]
  | cons check checks =>
      simp only [run_of_ne_nil _ (List.cons_ne_nil check checks), runAll_recorded]

/-- The checks of a gate are carried out in order, each in the state that the one before left. -/
theorem runAll_follows (executor : Executor State) (clock : Clock ClockState)
    (checks : List Check) (state : State) (clockState : ClockState) :
    ∃ states : Nat → State,
      states 0 = state ∧
      states checks.length = (runAll (executor.timedBy clock) checks (state, clockState)).2.1 ∧
      ∀ index, (inRange : index < checks.length) →
        ∃ run, (runAll (executor.timedBy clock) checks (state, clockState)).1[index]? = some run ∧
          run.check = checks[index] ∧
          executor checks[index].command (states index) = (run.ending, states (index + 1)) := by
  have shows := executor.timedBy_shows clock
  refine ⟨executor.stateAt (checks.map Check.command) state, rfl, ?_, ?_⟩
  · exact (shows.view_runAll checks (state, clockState)).symm
  · intro index inRange
    exact shows.runAll_at checks (state, clockState) inRange

/--
A gate refuses to run exactly if it has no checks, and then no command is carried out. Otherwise the
command of each check is carried out once, in order, and its ending goes into the record of that
check.
-/
theorem run_carries_out_every_check (executor : Executor State) (clock : Clock ClockState)
    (checks : List Check) (state : State) (clockState : ClockState) :
    ∃ result final clockFinal,
      run (executor.timedBy clock) checks (state, clockState) = (result, final, clockFinal) ∧
      run (executor.recorded.timedBy clock) checks ((state, []), clockState) =
        (result, (final, checks.map Check.command), clockFinal) ∧
      ((∃ refusal, result = .error refusal) ↔ checks = []) ∧
      (checks = [] → final = state) ∧
      (checks ≠ [] → ∃ outcome, result = .ok outcome ∧
        outcome.runs.length = checks.length ∧
        ∃ states : Nat → State, states 0 = state ∧ states checks.length = final ∧
          ∀ index, (inRange : index < checks.length) →
            ∃ run, outcome.runs[index]? = some run ∧ run.check = checks[index] ∧
              executor checks[index].command (states index) =
                (run.ending, states (index + 1))) ∧
      (∀ outcome, result = .ok outcome → outcome.passed = true → outcome.runs ≠ []) := by
  refine ⟨(run (executor.timedBy clock) checks (state, clockState)).1,
    (run (executor.timedBy clock) checks (state, clockState)).2.1,
    (run (executor.timedBy clock) checks (state, clockState)).2.2, rfl, ?_, ?_, ?_, ?_, ?_⟩
  · simpa using run_recorded executor clock checks state [] clockState
  · exact run_eq_error_iff (executor.timedBy clock) checks (state, clockState)
  · rintro rfl
    rfl
  · intro nonempty
    rw [run_of_ne_nil _ nonempty]
    refine ⟨_, rfl, ?_, runAll_follows executor clock checks state clockState⟩
    simpa using congrArg List.length
      (runAll_check (executor.timedBy clock) checks (state, clockState))
  · intro outcome returned _ noRuns
    have nonempty : checks ≠ [] := by
      rintro rfl
      cases returned
    rw [run_of_ne_nil _ nonempty] at returned
    have runs := runAll_check (executor.timedBy clock) checks (state, clockState)
    cases returned
    simp only at noRuns
    rw [noRuns] at runs
    exact nonempty runs.symm

end Gate

end CheckGate
