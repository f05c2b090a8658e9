import CheckGate.Proofs.JoinedGates
import Mathlib.Data.List.Perm.Basic

/-!
# Gates in another order

An executor without memory comes to the same ending whenever it is given the same command. A gate on
such an executor may run its checks in any order: every check keeps its ending, so that the findings
are put into the new order together with the checks. The verdict and the counts do not tell one
order from another, and the names of the failed checks are those of before in the new order.

For the same reason the findings do not depend on what the executor was given earlier. A gate that
is run again later, with any gates in between, finds what it has found before.
-/

namespace CheckGate

namespace Executor

variable {State : Type}

/-- The ending of a command is the same in every state. -/
def Memoryless (executor : Executor State) : Prop :=
  ∀ command state otherState, (executor command state).1 = (executor command otherState).1

theorem Memoryless.endings_carryOut {executor : Executor State} (memoryless : executor.Memoryless)
    (commands : List Command) (state otherState : State) :
    (executor.carryOut commands state).1 =
      commands.map fun command => (executor command otherState).1 := by
  induction commands generalizing state with
  | nil => rfl
  | cons command commands ih =>
      simp only [carryOut_cons, List.map_cons, List.cons.injEq]
      exact ⟨memoryless command state otherState, ih _⟩

end Executor

/-- The members of a list that stand at the given indices, in the order of the indices. -/
def arrange {Member : Type} (order : List Nat) (members : List Member) : List Member :=
  order.filterMap fun index => members[index]?

theorem arrange_map {Member Image : Type} (image : Member → Image) (order : List Nat)
    (members : List Member) :
    arrange order (members.map image) = (arrange order members).map image := by
  simp [arrange, List.map_filterMap]

theorem arrange_eq_of_forall₂ {Member : Type} {members reordered : List Member} {order : List Nat}
    (found : List.Forall₂ (fun member index => members[index]? = some member) reordered order) :
    arrange order members = reordered := by
  induction found with
  | nil => rfl
  | cons first _ ih =>
      apply (List.filterMap_cons_some first).trans
      exact congrArg (List.cons _) ih

/-- Every permutation of a list is given by an order of its indices. -/
theorem exists_arrange_of_perm {Member : Type} {members reordered : List Member}
    (permuted : reordered.Perm members) :
    ∃ order : List Nat, order.Perm (List.range members.length) ∧
      arrange order members = reordered := by
  have indexed : List.Forall₂ (fun member index => members[index]? = some member) members
      (List.range members.length) := by
    apply List.forall₂_iff_get.mpr
    refine ⟨by simp, ?_⟩
    intro index inRange _
    simp
  rcases List.perm_comp_forall₂ permuted indexed with ⟨order, found, orderPerm⟩
  exact ⟨order, orderPerm, arrange_eq_of_forall₂ found⟩

namespace Gate

variable {State ClockState : Type}

/-- What a gate finds does not depend on the state in which it is run, nor on the clock. -/
theorem run_findings {executor : Executor State} (memoryless : executor.Memoryless)
    (clock : Clock ClockState) {checks : List Check} (nonempty : checks ≠ [])
    (start : State × ClockState) (reference : State) :
    ∃ outcome, (run (executor.timedBy clock) checks start).1 = .ok outcome ∧
      outcome.findings =
        checks.map fun check => (check, (executor check.command reference).1) := by
  rcases run_records executor clock nonempty start.1 start.2 with
    ⟨outcome, clockFinal, ran, sameChecks, sameEndings⟩
  refine ⟨outcome, congrArg Prod.fst ran, ?_⟩
  calc
    outcome.findings = checks.zip
        ((executor.carryOut (checks.map Check.command) start.1).1) := by
      rw [Outcome.findings_eq_zip, sameChecks, sameEndings]
    _ = (checks.map id).zip
        (checks.map fun check => (executor check.command reference).1) := by
      rw [memoryless.endings_carryOut _ _ reference, List.map_map, List.map_id]
      rfl
    _ = checks.map fun check => (check, (executor check.command reference).1) :=
      List.zip_map' ..

/--
On an executor without memory, two gates with the same checks in different orders have the same
findings in the orders of their checks. If the first gate is run again, after any other gates on the
same machine, it finds the same.
-/
theorem run_of_reordered_checks {executor : Executor State} (memoryless : executor.Memoryless)
    (clock : Clock ClockState) {checks reordered : List Check} (nonempty : checks ≠ [])
    (permuted : reordered.Perm checks) (start otherStart : State × ClockState) :
    ∃ outcome other : Outcome,
      (run (executor.timedBy clock) checks start).1 = .ok outcome ∧
      (run (executor.timedBy clock) reordered otherStart).1 = .ok other ∧
      (∃ order : List Nat, order.Perm (List.range checks.length) ∧
        arrange order checks = reordered) ∧
      (∀ order : List Nat, arrange order checks = reordered →
        other.findings = arrange order outcome.findings) ∧
      other.passed = outcome.passed ∧
      other.tally = outcome.tally ∧
      other.failedNames.Perm outcome.failedNames ∧
      (reordered = checks.reverse →
        other.findings = outcome.findings.reverse ∧
        other.failedNames = outcome.failedNames.reverse) ∧
      ∀ gates : List (List Check), ∃ again : Outcome,
        (run (executor.timedBy clock) checks
          (gates.mapM (run (executor.timedBy clock))
            (run (executor.timedBy clock) checks start).2).2).1 = .ok again ∧
        again.findings = outcome.findings ∧
        again.failedNames = outcome.failedNames ∧
        again.tally = outcome.tally ∧
        again.passed = outcome.passed := by
  have otherNonempty : reordered ≠ [] := by
    rintro rfl
    exact nonempty permuted.nil_eq.symm
  rcases run_findings memoryless clock nonempty start start.1 with ⟨outcome, ran, findings⟩
  rcases run_findings memoryless clock otherNonempty otherStart start.1 with
    ⟨other, otherRan, otherFindings⟩
  have findingsPerm : other.findings.Perm outcome.findings := by
    rw [findings, otherFindings]
    exact permuted.map _
  have views := Outcome.views_of_findings_perm findingsPerm
  refine ⟨outcome, other, ran, otherRan, exists_arrange_of_perm permuted, ?_, views.1, views.2.1,
    views.2.2, ?_, ?_⟩
  · intro order arranged
    rw [otherFindings, findings, arrange_map, arranged]
  · intro reversed
    have findingsReversed : other.findings = outcome.findings.reverse := by
      rw [otherFindings, findings, reversed, List.map_reverse]
    exact ⟨findingsReversed, Outcome.failedNames_reverse findingsReversed⟩
  · intro gates
    rcases run_findings memoryless clock nonempty
        (gates.mapM (run (executor.timedBy clock))
          (run (executor.timedBy clock) checks start).2).2 start.1 with
      ⟨again, ranAgain, againFindings⟩
    have sameFindings : again.findings = outcome.findings := againFindings.trans findings.symm
    have sameViews := Outcome.views_of_findings_perm (List.Perm.of_eq sameFindings)
    refine ⟨again, ranAgain, sameFindings, ?_, sameViews.2.1, sameViews.1⟩
    simp only [Outcome.failedNames_eq_map_findings, sameFindings]

/-- An executor that counts its commands, and lets all fail that have arguments. -/
def argumentsFail : Executor Nat := fun command given =>
  (.exited command.arguments.length, given + 1)

theorem run_of_tests_before_linter :
    argumentsFail.Memoryless ∧ defaultChecks ≠ [] ∧
      defaultChecks.reverse.Perm defaultChecks ∧
      ∃ outcome other : Outcome,
        (run (argumentsFail.timedBy Clock.stopped) defaultChecks (0, ())).1 = .ok outcome ∧
        (run (argumentsFail.timedBy Clock.stopped) defaultChecks.reverse (7, ())).1 = .ok other ∧
        other.findings = outcome.findings.reverse ∧
        other.failedNames = outcome.failedNames.reverse ∧
        other.tally = outcome.tally := by
  have memoryless : argumentsFail.Memoryless := fun _ _ _ => rfl
  have nonempty : defaultChecks ≠ [] := by decide
  have permuted : defaultChecks.reverse.Perm defaultChecks := List.reverse_perm _
  rcases run_of_reordered_checks memoryless Clock.stopped nonempty permuted (0, ()) (7, ()) with
    ⟨outcome, other, ran, otherRan, _, _, _, sameTally, _, reversed, _⟩
  have findings := reversed rfl
  exact ⟨memoryless, nonempty, permuted, outcome, other, ran, otherRan, findings.1, findings.2,
    sameTally⟩

end Gate

end CheckGate
