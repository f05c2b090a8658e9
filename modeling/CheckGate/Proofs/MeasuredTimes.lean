import CheckGate.Proofs.Gate
import CheckGate.Script
import Mathlib.Algebra.GroupWithZero.Nat
import Mathlib.Order.Monotone.Basic

/-!
# What the measured times of a gate contain

A check is timed by two readings of the clock, one before its command and one after it. On a clock
that never goes back the command falls between the two readings, and every check is read only after
the one before it: the point at which the clock stands between two checks separates their readings.
So a measured time contains the time of its own command and nothing of any other, and all of them
together fit into the time that the gate takes. How far the clock moves, and when, does not matter.
-/

namespace CheckGate

/-- The clock of a machine, which stands where `instant` says, never goes back. -/
structure Machine.KeepsTime {State : Type} (machine : Machine State) (instant : State → Instant) :
    Prop where
  instant_le_now : ∀ state, instant state ≤ (machine.now state).1
  now_le_instant : ∀ state, (machine.now state).1 ≤ instant (machine.now state).2
  instant_le_execute : ∀ command state, instant state ≤ instant (machine.execute command state).2

theorem Executor.timedBy_keepsTime {State ClockState : Type} (executor : Executor State)
    (clock : Clock ClockState) :
    (executor.timedBy clock).KeepsTime fun state => clock.instant state.2 where
  instant_le_now state := clock.instant_le_read state.2
  now_le_instant state := clock.read_le_instant state.2
  instant_le_execute command state := clock.instant_le_pass command state.2

/-- The points in time at which a check is run, with its command between the two readings. -/
structure Timing where
  /-- The reading before the command. -/
  start : Instant
  /-- Where the clock stands when the command begins. -/
  began : Instant
  /-- Where the clock stands when the command has ended. -/
  ended : Instant
  /-- The reading after the command. -/
  finish : Instant
  start_le_began : start ≤ began
  began_le_ended : began ≤ ended
  ended_le_finish : ended ≤ finish

namespace Timing

variable (timing : Timing)

theorem start_le_finish : timing.start ≤ timing.finish := by
  apply Nat.le_trans timing.start_le_began
  exact Nat.le_trans timing.began_le_ended timing.ended_le_finish

theorem commandTime_le_measured :
    timing.ended - timing.began ≤ timing.finish - timing.start := by
  apply Nat.le_trans (Nat.sub_le_sub_right timing.ended_le_finish timing.began)
  exact Nat.sub_le_sub_left timing.start_le_began timing.finish

end Timing

namespace Machine.KeepsTime

open Gate Sequence

variable {State : Type} {machine : Machine State} {instant : State → Instant}

/-- The points in time at which a check is run by a machine that comes to it in the given state. -/
def timing (keepsTime : machine.KeepsTime instant) (check : Check) (state : State) : Timing where
  start := (machine.now state).1
  began := instant (machine.now state).2
  ended := instant (machine.execute check.command (machine.now state).2).2
  finish := (machine.now (machine.execute check.command (machine.now state).2).2).1
  start_le_began := keepsTime.now_le_instant state
  began_le_ended := keepsTime.instant_le_execute check.command _
  ended_le_finish := keepsTime.instant_le_now _

variable (keepsTime : machine.KeepsTime instant)

theorem elapsed_runCheck (check : Check) (state : State) :
    (runCheck machine check state).1.elapsed.nanoseconds =
      (keepsTime.timing check state).finish - (keepsTime.timing check state).start := rfl

theorem instant_le_start (check : Check) (state : State) :
    instant state ≤ (keepsTime.timing check state).start :=
  keepsTime.instant_le_now state

theorem finish_le_instant (check : Check) (state : State) :
    (keepsTime.timing check state).finish ≤ instant (runCheck machine check state).2 :=
  keepsTime.now_le_instant _

include keepsTime in
/-- Over one check the clock moves by at least the measured time. -/
theorem instant_add_elapsed_le (check : Check) (state : State) :
    instant state + (runCheck machine check state).1.elapsed.nanoseconds ≤
      instant (runCheck machine check state).2 := by
  have earliest := keepsTime.instant_le_start check state
  have latest := keepsTime.finish_le_instant check state
  have inOrder := (keepsTime.timing check state).start_le_finish
  calc
    instant state + (runCheck machine check state).1.elapsed.nanoseconds ≤
        (keepsTime.timing check state).start +
          (runCheck machine check state).1.elapsed.nanoseconds := Nat.add_le_add_right earliest _
    _ = (keepsTime.timing check state).finish := Nat.add_sub_of_le inOrder
    _ ≤ instant (runCheck machine check state).2 := latest

include keepsTime in
theorem instant_add_sum_elapsed_le (checks : List Check) (state : State) :
    instant state +
        ((runAll machine checks state).1.map fun run => run.elapsed.nanoseconds).sum ≤
      instant (runAll machine checks state).2 := by
  induction checks generalizing state with
  | nil => exact Nat.le_refl _
  | cons check checks ih =>
      have first := keepsTime.instant_add_elapsed_le check state
      have others := ih (runCheck machine check state).2
      simp only [runAll_cons, List.map_cons, List.sum_cons, ← Nat.add_assoc]
      exact Nat.le_trans (Nat.add_le_add_right first _) others

include keepsTime in
theorem monotone_stateAt (checks : List Check) (state : State) :
    Monotone fun index => instant (stateAt (runCheck machine) checks state index) := by
  apply monotone_nat_of_le_succ
  intro index
  cases found : checks[index]? with
  | none => simp [stateAt_succ_of_none _ found]
  | some check =>
      simp only [stateAt_succ _ found]
      apply Nat.le_trans _ (keepsTime.instant_add_elapsed_le check _)
      exact Nat.le_add_right _ _

/-- A check is read for the last time before a later one is read for the first time. -/
theorem finish_le_start_of_lt (checks : List Check) (state : State) {index later : Nat}
    (before : index < later) (laterInRange : later < checks.length) :
    (keepsTime.timing checks[index] (stateAt (runCheck machine) checks state index)).finish ≤
      (keepsTime.timing checks[later] (stateAt (runCheck machine) checks state later)).start := by
  have found : checks[index]? = some checks[index] :=
    List.getElem?_eq_getElem (Nat.lt_trans before laterInRange)
  have next := stateAt_succ (runCheck machine) found state
  calc
    (keepsTime.timing checks[index] (stateAt (runCheck machine) checks state index)).finish ≤
        instant (stateAt (runCheck machine) checks state (index + 1)) := by
      simpa [next] using keepsTime.finish_le_instant checks[index] _
    _ ≤ instant (stateAt (runCheck machine) checks state later) :=
      keepsTime.monotone_stateAt checks state before
    _ ≤ (keepsTime.timing checks[later] (stateAt (runCheck machine) checks state later)).start :=
      keepsTime.instant_le_start checks[later] _

end Machine.KeepsTime

namespace Gate

open Sequence

variable {State : Type} {machine : Machine State} {instant : State → Instant}

/--
On a clock that never goes back, the measured time of every check covers its own command and nothing
of any other. All of them together come to at most the time over which the clock moves while the
gate runs.
-/
theorem run_measures_commands_apart (keepsTime : machine.KeepsTime instant) {checks : List Check}
    (nonempty : checks ≠ []) (state : State) :
    ∃ (outcome : Outcome) (states : Nat → State),
      let timing := fun index (inRange : index < checks.length) =>
        keepsTime.timing checks[index] (states index)
      run machine checks state = (.ok outcome, states checks.length) ∧
      states 0 = state ∧
      outcome.runs.length = checks.length ∧
      (∀ index, (inRange : index < checks.length) →
        ∃ run, outcome.runs[index]? = some run ∧
          runCheck machine checks[index] (states index) = (run, states (index + 1)) ∧
          run.elapsed.nanoseconds =
            (timing index inRange).finish - (timing index inRange).start ∧
          (timing index inRange).ended - (timing index inRange).began ≤
            run.elapsed.nanoseconds ∧
          ∀ other, (otherInRange : other < checks.length) → other ≠ index →
            (timing other otherInRange).ended ≤ (timing index inRange).start ∨
              (timing index inRange).finish ≤ (timing other otherInRange).began) ∧
      instant state + (outcome.runs.map fun run => run.elapsed.nanoseconds).sum ≤
        instant (states checks.length) := by
  refine ⟨⟨(runAll machine checks state).1⟩, stateAt (runCheck machine) checks state, ?_⟩
  intro timing
  have final : stateAt (runCheck machine) checks state checks.length =
      (runAll machine checks state).2 :=
    stateAt_of_length_le (runCheck machine) (Nat.le_refl _) state
  refine ⟨?_, rfl, ?_, ?_, ?_⟩
  · rw [final, run_of_ne_nil machine nonempty]
  · simpa using congrArg List.length (runAll_check machine checks state)
  · intro index inRange
    rcases step_at (runCheck machine) checks state index inRange with ⟨run, found, left⟩
    have measured : run.elapsed.nanoseconds =
        (timing index inRange).finish - (timing index inRange).start := by
      have elapsed := keepsTime.elapsed_runCheck checks[index]
        (stateAt (runCheck machine) checks state index)
      simpa only [left] using elapsed
    refine ⟨run, found, left, measured, ?_, ?_⟩
    · simpa only [measured] using (timing index inRange).commandTime_le_measured
    · intro other otherInRange different
      rcases Nat.lt_or_gt_of_ne different with before | after
      · left
        apply Nat.le_trans (timing other otherInRange).ended_le_finish
        exact keepsTime.finish_le_start_of_lt checks state before inRange
      · right
        apply Nat.le_trans _ (timing other otherInRange).start_le_began
        exact keepsTime.finish_le_start_of_lt checks state after otherInRange
  · rw [final]
    exact keepsTime.instant_add_sum_elapsed_le checks state

/-- A clock that moves before and after each reading, and over a command by its arguments. -/
def restlessClock : Clock Nat where
  instant := id
  read instant := (instant + 1, instant + 2)
  pass command instant := instant + 10 * command.arguments.length
  instant_le_read instant := Nat.le_add_right instant 1
  read_le_instant instant := Nat.le_succ (instant + 1)
  instant_le_pass _ instant := Nat.le_add_right instant _

theorem run_measures_beside_restlessClock :
    (Script.answer.timedBy restlessClock).KeepsTime (fun state => restlessClock.instant state.2) ∧
      defaultChecks ≠ [] ∧
      ∃ (outcome : Outcome) (final : Script × Nat),
        run (Script.answer.timedBy restlessClock) defaultChecks (Script.ofReplies [], 0) =
          (.ok outcome, final) ∧
        (outcome.runs.map fun run => run.elapsed.nanoseconds) = [12, 12] ∧
        (∀ index, index < defaultChecks.length → ∃ run, outcome.runs[index]? = some run ∧
          10 ≤ run.elapsed.nanoseconds) ∧
        (outcome.runs.map fun run => run.elapsed.nanoseconds).sum ≤ final.2 := by
  have keepsTime := Script.answer.timedBy_keepsTime restlessClock
  have nonempty : defaultChecks ≠ [] := by decide
  rcases run_measures_commands_apart keepsTime nonempty (Script.ofReplies [], 0) with
    ⟨outcome, states, ran, _, _, measured, total⟩
  refine ⟨keepsTime, nonempty, outcome, states 2, ran, ?_, ?_, ?_⟩
  · cases congrArg Prod.fst ran
    rfl
  · intro index inRange
    have oneArgument : ∀ check ∈ defaultChecks, check.command.arguments.length = 1 := by decide
    rcases measured index inRange with ⟨run, found, _, _, covers, _⟩
    refine ⟨run, found, ?_⟩
    calc
      10 = 10 * defaultChecks[index].command.arguments.length := by
        rw [oneArgument _ (List.getElem_mem inRange)]
      _ ≤ run.elapsed.nanoseconds :=
        Nat.le_trans (Nat.le_of_eq (Nat.add_sub_cancel_left _ _).symm) covers
  · apply Nat.le_trans _ total
    exact Nat.le_add_left _ 0

end Gate

/-! ## Delays of a script -/

namespace Script

open Gate

theorem machine_keepsTime : machine.KeepsTime instant where
  instant_le_now _ := Nat.le_refl _
  now_le_instant _ := Nat.le_refl _
  instant_le_execute _ _ := Nat.le_add_right _ _

theorem runCheck_covers (check : Check) (script : Script) :
    ∃ exchange, (runCheck machine check script).2.exchanges = script.exchanges ++ [exchange] ∧
      exchange.delay.nanoseconds ≤
        (runCheck machine check script).1.elapsed.nanoseconds := by
  refine ⟨{ command := check.command, reply? := script.pending.head? }, rfl, ?_⟩
  apply Nat.le_trans _ (machine_keepsTime.timing check script).commandTime_le_measured
  exact Nat.le_of_eq (Nat.add_sub_cancel_left _ _).symm

theorem runAll_covers (checks : List Check) (script : Script) :
    ∃ exchanges, (runAll machine checks script).2.exchanges = script.exchanges ++ exchanges ∧
      ((runAll machine checks script).1.zipWith
        (fun run exchange => decide (exchange.delay.nanoseconds ≤ run.elapsed.nanoseconds))
        exchanges) = checks.map fun _ => true := by
  induction checks generalizing script with
  | nil => exact ⟨[], (List.append_nil _).symm, rfl⟩
  | cons check checks ih =>
      rcases runCheck_covers check script with ⟨exchange, first, covered⟩
      rcases ih (runCheck machine check script).2 with ⟨exchanges, others, allCovered⟩
      refine ⟨exchange :: exchanges, ?_, ?_⟩
      · simp [others, first]
      · simp [covered, allCovered]

/-- For each check of a gate on a script, the measured time covers the delay of its reply. -/
theorem coversDelays_run (replies : List Reply) {checks : List Check} (nonempty : checks ≠ []) :
    ∃ outcome script, Gate.run machine checks (ofReplies replies) = (.ok outcome, script) ∧
      script.coversDelays outcome = checks.map fun _ => true := by
  rcases runAll_covers checks (ofReplies replies) with ⟨exchanges, given, covered⟩
  refine ⟨_, _, run_of_ne_nil machine nonempty (ofReplies replies), ?_⟩
  have onlyThose : (runAll machine checks (ofReplies replies)).2.exchanges = exchanges := by
    simpa [ofReplies] using given
  rw [coversDelays, onlyThose]
  exact covered

end Script

end CheckGate
