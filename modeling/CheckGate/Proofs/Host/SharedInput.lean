import CheckGate.Proofs.Host.Attempt
import CheckGate.Proofs.Host.Input

/-!
# How processes share an input

The processes of a gate read one input in turn. Whatever they do besides reading, and however many
commands could not be started between them, their readings are those of a single reader who reads
as many lines as all of them together. This is the invariant of a console here: an attempt that
starts a process adds its lines to those of the single reader, and one that starts none leaves the
console as it is. What a single reader finds then holds of all processes of a run.
-/

namespace CheckGate.Host

theorem Directory.Attempt.readings_of_some {directory : Directory} {command : Command}
    {before after : Console} {child : Child} {ending : Ending}
    (attempted : directory.Attempt command before (some child) ending after) :
    child.readings.length = child.behaviour.lineCount ∧
      child.readings.flatMap Reading.taken ++ after.unread = before.unread := by
  rcases attempted.of_some child rfl with ⟨_, _, reading, _, _⟩
  have length := length_readLines child.behaviour.lineCount before.unread
  have taken := taken_readLines child.behaviour.lineCount before.unread
  rw [reading] at length taken
  exact ⟨length, taken⟩

namespace Console

/-- The readings of all processes, in order. -/
def readings (console : Console) : List Reading :=
  console.started.flatMap Child.readings

/-- The processes have read, one after another, what a single reader of the input would have. -/
def ReadsAsOne (input : List Char) (console : Console) : Prop :=
  readLines console.readings.length input = (console.readings, console.unread)

theorem readsAsOne_ofInput (input : String) : (ofInput input).ReadsAsOne input.toList := rfl

variable {directory : Directory} {command : Command} {before after : Console}
  {child? : Option Child} {ending : Ending}

/-- One attempt keeps the processes reading as one, whether it starts a process or not. -/
theorem ReadsAsOne.attempt {input : List Char} (asOne : before.ReadsAsOne input)
    (attempted : directory.Attempt command before child? ending after) :
    after.ReadsAsOne input := by
  cases child? with
  | none =>
      rcases attempted.of_none rfl with ⟨unchanged, _⟩
      rw [unchanged]
      exact asOne
  | some child =>
      rcases attempted.of_some child rfl with ⟨_, _, reading, started, _⟩
      have count := attempted.readings_of_some.1
      have sameReadings : after.readings = before.readings ++ child.readings := by
        simp [readings, started]
      unfold ReadsAsOne at asOne ⊢
      rw [sameReadings, List.length_append, readLines_add, asOne, count, reading]

/-- A run of commands keeps the processes reading as one, up to every command. -/
theorem readsAsOne_stateAt (directory : Directory) (commands : List Command) (input : String)
    (index : Nat) :
    (directory.executor.stateAt commands (ofInput input) index).ReadsAsOne input.toList := by
  induction index with
  | zero => exact readsAsOne_ofInput input
  | succ index ih =>
      cases found : commands[index]? with
      | none =>
          rw [directory.executor.stateAt_succ_of_none found]
          exact ih
      | some command =>
          rw [directory.executor.stateAt_succ found]
          exact ih.attempt (directory.attempt command _)

namespace ReadsAsOne

variable {input : List Char} {console : Console}

theorem readings_eq (asOne : console.ReadsAsOne input) :
    (readLines console.readings.length input).1 = console.readings := by
  rw [asOne]

theorem taken_readings (asOne : console.ReadsAsOne input) :
    console.readings.flatMap Reading.taken ++ console.unread = input := by
  have taken := taken_readLines console.readings.length input
  rw [asOne] at taken
  exact taken

theorem not_mem_text (asOne : console.ReadsAsOne input) {reading : Reading}
    (readingMem : reading ∈ console.readings) : '\n' ∉ reading.text := by
  rw [← asOne.readings_eq] at readingMem
  exact not_mem_text_of_mem_readLines readingMem

theorem eq_atEnd_of_later (asOne : console.ReadsAsOne input) {before later : List Reading}
    {text : List Char} (ended : console.readings = before ++ .atEnd text :: later)
    {reading : Reading} (readingMem : reading ∈ later) : reading = .atEnd [] :=
  eq_atEnd_of_mem_later (asOne.readings_eq.trans ended) readingMem

end ReadsAsOne

end Console

namespace Directory

variable {ClockState : Type}

/--
What the processes of a gate have taken from its input, in order, and then what no process has read
make up the input. No reading has a line break in its text, and after the end of the input all
readings find nothing.
-/
theorem run_shares_the_input (directory : Directory) (clock : Clock ClockState)
    (clockState : ClockState) (input : String) (checks : List Check) :
    ∃ (result : Except Gate.Refusal Outcome) (consoles : Nat → Console) (clockFinal : ClockState),
      Gate.run (directory.executor.timedBy clock) checks (Console.ofInput input, clockState) =
        (result, consoles checks.length, clockFinal) ∧
      consoles 0 = Console.ofInput input ∧
      (∀ index, (inRange : index < checks.length) → ∃ child? ending,
        (Gate.endings result)[index]? = some ending ∧
        directory.Attempt checks[index].command (consoles index) child? ending
          (consoles (index + 1)) ∧
        (∀ child, child? = some child →
          child.readings.length = child.behaviour.lineCount ∧
          child.readings.flatMap Reading.taken ++ (consoles (index + 1)).unread =
            (consoles index).unread) ∧
        ((∃ reason, ending = .notStarted reason) →
          (consoles (index + 1)).unread = (consoles index).unread)) ∧
      let started := (consoles checks.length).started
      let readings := started.flatMap Child.readings
      readings.flatMap Reading.taken ++ (consoles checks.length).unread = input.toList ∧
      (consoles checks.length).output.stdout = String.join (started.map fun child =>
        String.join (child.readings.map Reading.report) ++ child.behaviour.stdout) ∧
      (∀ reading ∈ readings, '\n' ∉ reading.text) ∧
      ∀ before text later, readings = before ++ .atEnd text :: later →
        ∀ reading ∈ later, reading = .atEnd [] := by
  rcases directory.run_attempts clock clockState (Console.ofInput input) checks with
    ⟨left, attempts⟩
  have asOne := Console.readsAsOne_stateAt directory (checks.map Check.command) input checks.length
  refine ⟨_, directory.executor.stateAt (checks.map Check.command) (Console.ofInput input), _,
    Prod.ext rfl (Prod.ext left rfl), rfl, ?_, asOne.taken_readings, ?_, ?_,
    ?_⟩
  · intro index inRange
    rcases attempts index inRange with ⟨child?, ending, found, attempted⟩
    refine ⟨child?, ending, found, attempted, ?_, ?_⟩
    · rintro child rfl
      exact attempted.readings_of_some
    · intro notStarted
      rw [(attempted.of_none (attempted.none_iff.mpr notStarted)).1]
  · rw [Console.output_eq]
  · intro reading readingMem
    exact asOne.not_mem_text readingMem
  · intro before text later ended reading readingMem
    exact asOne.eq_atEnd_of_later ended readingMem

end Directory

end CheckGate.Host
