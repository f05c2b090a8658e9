import CheckGate.Proofs.CommandLine
import CheckGate.Proofs.Utf8

/-!
# Calls with arguments

A call with arguments runs no checks: it starts nothing and reads nothing, and what it writes and
answers is settled by its first argument. Three words ask for help. Any other argument is a mistake,
and is shown in the message as the text that its bytes encode. Bytes that encode no text are not a
help word, whatever they look like, and the message about them contains a replacement.
-/

namespace CheckGate.CommandLine

open Host

variable {ClockState : Type} {first : List UInt8}

theorem ofArguments_of_helpWord (known : first ∈ helpWords.map Utf8.encode)
    (more : List (List UInt8)) : Request.ofArguments (first :: more) = .help := by
  rcases List.mem_map.mp known with ⟨word, isHelpWord, rfl⟩
  simp [Request.ofArguments, Utf8.decode?_encode, isHelpWord]

theorem ofArguments_of_not_helpWord (unknown : first ∉ helpWords.map Utf8.encode)
    (more : List (List UInt8)) :
    Request.ofArguments (first :: more) = .unexpected (Utf8.decodeLossy first) := by
  simp only [Request.ofArguments]
  cases decoded : Utf8.decode? first with
  | none => rfl
  | some word =>
      obtain rfl := Utf8.decode?_eq_some_iff.mp decoded
      have notHelpWord : word ∉ helpWords := fun isHelpWord =>
        unknown (List.mem_map_of_mem isHelpWord)
      simp [notHelpWord, Utf8.decodeLossy_encode]

/-- A request that is answered on the spot leaves everything to be started and to be read. -/
theorem execute_of_respond {arguments : List (List UInt8)} (response : Response)
    (answered : ∀ (State : Type) (machine : Machine State) (state : State),
      respond machine (Request.ofArguments arguments) state = (response, state))
    (directory : Directory) (clock : Clock ClockState) (clockState : ClockState) (input : String) :
    attempts directory clock clockState input arguments = [] ∧
      execute directory clock clockState input arguments =
        { exitCode := response.exitCode, output := response.output, started := [],
          unread := input.toList } := by
  constructor
  · simp only [attempts, answered]
  · have nothingBefore : (Console.ofInput input).output ++ response.output = response.output := by
      change (⟨"" ++ response.output.stdout, "" ++ response.output.stderr⟩ : Output) = _
      simp only [String.empty_append]
    simp only [execute, answered, nothingBefore]
    rfl

theorem execute_of_helpWord (known : first ∈ helpWords.map Utf8.encode)
    (more : List (List UInt8)) (directory : Directory) (clock : Clock ClockState)
    (clockState : ClockState) (input : String) :
    attempts directory clock clockState input (first :: more) = [] ∧
      execute directory clock clockState input (first :: more) =
        { exitCode := successCode, output := .onStderr usage, started := [],
          unread := input.toList } := by
  apply execute_of_respond ⟨successCode, .onStderr usage⟩
  intro State machine state
  rw [ofArguments_of_helpWord known]
  rfl

theorem execute_of_not_helpWord (unknown : first ∉ helpWords.map Utf8.encode)
    (more : List (List UInt8)) (directory : Directory) (clock : Clock ClockState)
    (clockState : ClockState) (input : String) :
    attempts directory clock clockState input (first :: more) = [] ∧
      execute directory clock clockState input (first :: more) =
        { exitCode := mistakeCode
          output := .onStderr
            ("hygiene: unexpected argument `" ++ Utf8.decodeLossy first ++ "`\n" ++ usage)
          started := []
          unread := input.toList } := by
  apply execute_of_respond ⟨mistakeCode, .onStderr
    ("hygiene: unexpected argument `" ++ Utf8.decodeLossy first ++ "`\n" ++ usage)⟩
  intro State machine state
  rw [ofArguments_of_not_helpWord unknown]
  rfl

/--
A call with arguments starts and reads nothing, and its first argument settles the exit code and
what is written: how the program is used, after a message that shows the argument unless its bytes
encode a help word.
-/
theorem execute_heeds_its_first_argument (directory : Directory) (clock : Clock ClockState)
    (clockState : ClockState) (input : String) (first : List UInt8) (more : List (List UInt8)) :
    let execution := execute directory clock clockState input (first :: more)
    let usageText := "usage: hygiene\n" ++
      "  runs `cargo clippy`, then `cargo test`, and exits non-zero if either fails\n"
    attempts directory clock clockState input (first :: more) = [] ∧
    execution.started = [] ∧
    execution.unread = input.toList ∧
    execution.output.stdout = "" ∧
    (first ∈ ["help", "--help", "-h"].map Utf8.encode →
      execution.exitCode = 0 ∧
      execution.output.stderr = usageText) ∧
    (first ∉ ["help", "--help", "-h"].map Utf8.encode →
      execution.exitCode = 2 ∧
      ∃ shown : String,
        execution.output.stderr =
          "hygiene: unexpected argument `" ++ shown ++ "`\n" ++ usageText ∧
        (∀ text, first = Utf8.encode text → shown = text) ∧
        ((∀ text, first ≠ Utf8.encode text) → '\uFFFD' ∈ shown.toList)) ∧
    ((∀ text, first ≠ Utf8.encode text) → execution.exitCode = 2) ∧
    ∀ (OtherClockState : Type) (otherDirectory : Directory) (otherClock : Clock OtherClockState)
      (otherClockState : OtherClockState) (otherInput : String) (otherMore : List (List UInt8)),
      (execute otherDirectory otherClock otherClockState otherInput
        (first :: otherMore)).exitCode = execution.exitCode ∧
      (execute otherDirectory otherClock otherClockState otherInput
        (first :: otherMore)).output = execution.output := by
  intro execution usageText
  by_cases known : first ∈ helpWords.map Utf8.encode
  · have executed := execute_of_helpWord known more directory clock clockState input
    refine ⟨executed.1, ?_⟩
    rw [show execution = _ from executed.2]
    refine ⟨rfl, rfl, rfl, fun _ => ⟨rfl, rfl⟩, fun unknown => absurd known unknown, ?_, ?_⟩
    · intro malformed
      rcases List.mem_map.mp known with ⟨word, _, encodes⟩
      exact absurd encodes.symm (malformed word)
    · intro OtherClockState otherDirectory otherClock otherClockState otherInput otherMore
      rw [(execute_of_helpWord known otherMore otherDirectory otherClock otherClockState
        otherInput).2]
      exact ⟨rfl, rfl⟩
  · have executed := execute_of_not_helpWord known more directory clock clockState input
    refine ⟨executed.1, ?_⟩
    rw [show execution = _ from executed.2]
    refine ⟨rfl, rfl, rfl, fun isHelpWord => absurd isHelpWord known, ?_, fun _ => rfl, ?_⟩
    · intro _
      refine ⟨rfl, Utf8.decodeLossy first, rfl, ?_, Utf8.replacement_mem_decodeLossy⟩
      rintro text rfl
      exact Utf8.decodeLossy_encode text
    · intro OtherClockState otherDirectory otherClock otherClockState otherInput otherMore
      rw [(execute_of_not_helpWord known otherMore otherDirectory otherClock otherClockState
        otherInput).2]
      exact ⟨rfl, rfl⟩

end CheckGate.CommandLine
