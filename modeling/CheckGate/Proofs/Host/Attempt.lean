import CheckGate.Proofs.Gate
import CheckGate.Proofs.Host.Console
import CheckGate.Proofs.Host.Executable
import CheckGate.Proofs.Ending

/-!
# Gates on a host

On a host, carrying out a command is an attempt: it either starts one process, which reads on where
the processes before it have stopped, or leaves no trace but its ending. The attempts of a gate
follow one another, so the processes that were started, the endings in the records and the console
between two checks can be told from the same sequence of attempts.
-/

namespace CheckGate.Host

/-- What an attempt to carry out a command comes to, with the process that it starts, if any. -/
structure Directory.Attempt (directory : Directory) (command : Command) (before : Console)
    (child? : Option Child) (ending : Ending) (after : Console) : Prop where
  /-- There is a process if no word of the command has the zero character and its program leads to
  a program of the directory, and only then. -/
  isSome_iff : child?.isSome = true ↔
    (∀ word ∈ command.words, '\x00' ∉ word.toList) ∧
      ∃ file behaviour, directory.locate command.program = .ok (.file file) ∧
        file.content = .program behaviour
  /-- The ending is that of a command which was not started if there is no process, and only
  then. -/
  none_iff : child? = none ↔ ∃ reason, ending = .notStarted reason
  /-- Without a process nothing is written and nothing is read, and the ending names the program
  and the cause. -/
  of_none : child? = none → after = before ∧
    ∃ error, directory.executable command = .error error ∧
      ending = .notStarted ("failed to invoke `" ++ command.program ++ "`: " ++ error.message)
  /-- A process is a run of the file that the program leads to, with the arguments of the command.
  It takes its lines from what is left of the input, and the ending is that of its status. -/
  of_some : ∀ child, child? = some child →
    (∃ file ∈ directory.files, ∃ behaviour, directory.locate command.program = .ok (.file file) ∧
      file.content = .program behaviour ∧ child.file = file.name ∧
      child.behaviour = behaviour command.arguments) ∧
    child.arguments = command.arguments ∧
    readLines child.behaviour.lineCount before.unread = (child.readings, after.unread) ∧
    after.started = before.started ++ [child] ∧
    ending = child.behaviour.finish.status.ending

namespace Directory

theorem attempt_of_ok {directory : Directory} {command : Command} {executable : Executable}
    (startable : directory.executable command = .ok executable) (console : Console) :
    directory.Attempt command console (directory.child? command console.unread)
      (directory.executor command console).1 (directory.executor command console).2 := by
  rcases executable_eq_ok_iff.mp startable with ⟨zeroFree, file, located, content, name⟩
  rw [child?_of_ok startable, executor_of_ok startable]
  constructor
  · constructor
    · intro _
      exact ⟨zeroFree, file, executable.behaviour, located, content⟩
    · intro _
      rfl
  · constructor
    · intro noChild
      cases noChild
    · rintro ⟨reason, notStarted⟩
      exact absurd notStarted (WaitStatus.ending_ne_notStarted _ reason)
  · intro noChild
    cases noChild
  · intro child started
    cases started
    exact ⟨⟨file, mem_files_of_locate located, executable.behaviour, located, content, name.symm,
      rfl⟩, rfl, rfl, rfl, rfl⟩

theorem attempt_of_error {directory : Directory} {command : Command} {error : StartError}
    (refused : directory.executable command = .error error) (console : Console) :
    directory.Attempt command console (directory.child? command console.unread)
      (directory.executor command console).1 (directory.executor command console).2 := by
  rw [child?_of_error refused, executor_of_error refused]
  constructor
  · constructor
    · intro started
      cases started
    · rintro ⟨zeroFree, file, behaviour, located, content⟩
      have startable : directory.executable command = .ok ⟨file.name, behaviour⟩ :=
        executable_eq_ok_iff.mpr ⟨zeroFree, file, located, content, rfl⟩
      rw [refused] at startable
      cases startable
  · constructor
    · intro _
      exact ⟨_, rfl⟩
    · intro _
      rfl
  · intro _
    exact ⟨rfl, error, refused, rfl⟩
  · intro child started
    cases started

theorem attempt (directory : Directory) (command : Command) (console : Console) :
    directory.Attempt command console (directory.child? command console.unread)
      (directory.executor command console).1 (directory.executor command console).2 := by
  cases found : directory.executable command with
  | ok executable => exact attempt_of_ok found console
  | error error => exact attempt_of_error found console

/-- The process that the command with a given index starts, when commands are carried out in
order. -/
def childAt (directory : Directory) (commands : List Command) (console : Console) (index : Nat) :
    Option Child :=
  commands[index]?.bind fun command =>
    directory.child? command (directory.executor.stateAt commands console index).unread

theorem childAt_of_getElem? {directory : Directory} {commands : List Command} {index : Nat}
    {command : Command} (found : commands[index]? = some command) (console : Console) :
    directory.childAt commands console index =
      directory.child? command (directory.executor.stateAt commands console index).unread := by
  rw [childAt, found]
  rfl

theorem started_stateAt_succ (directory : Directory) (commands : List Command) (console : Console)
    (index : Nat) :
    (directory.executor.stateAt commands console (index + 1)).started =
      (directory.executor.stateAt commands console index).started ++
        (directory.childAt commands console index).toList := by
  cases found : commands[index]? with
  | none =>
      have noChild : directory.childAt commands console index = none := by
        rw [childAt, found]
        rfl
      rw [directory.executor.stateAt_succ_of_none found, noChild]
      simp
  | some command =>
      rw [directory.executor.stateAt_succ found, started_executor, childAt_of_getElem? found]

theorem started_stateAt (directory : Directory) (commands : List Command) (console : Console)
    (index : Nat) :
    (directory.executor.stateAt commands console index).started =
      console.started ++ (List.range index).filterMap (directory.childAt commands console) := by
  induction index with
  | zero => simp
  | succ index ih =>
      rw [started_stateAt_succ, ih, List.range_succ, List.filterMap_append, List.append_assoc]
      cases child : directory.childAt commands console index with
      | none => rw [List.filterMap_cons_none child]; rfl
      | some process => rw [List.filterMap_cons_some child]; rfl

variable {ClockState : Type}

/-- Each check of a gate, even of one that refuses to run, is an attempt on the console that the
checks before it have left. -/
theorem run_attempts (directory : Directory) (clock : Clock ClockState) (clockState : ClockState)
    (console : Console) (checks : List Check) :
    let ran := Gate.run (directory.executor.timedBy clock) checks (console, clockState)
    let consoles := directory.executor.stateAt (checks.map Check.command) console
    ran.2.1 = consoles checks.length ∧
    ∀ index, (inRange : index < checks.length) → ∃ child? ending,
      (Gate.endings ran.1)[index]? = some ending ∧
      directory.Attempt checks[index].command (consoles index) child? ending
        (consoles (index + 1)) := by
  intro ran consoles
  have carriedOut : directory.executor.carryOut (checks.map Check.command) console =
      (Gate.endings ran.1, ran.2.1) :=
    (directory.executor.timedBy_shows clock).run checks (console, clockState)
  constructor
  · change ran.2.1 = directory.executor.stateAt (checks.map Check.command) console checks.length
    rw [directory.executor.stateAt_of_length_le (by simp), carriedOut]
  · intro index inRange
    rcases directory.executor.carryOut_at (checks.map Check.command) console index
      (by simpa using inRange) with ⟨ending, found, cameTo⟩
    rw [carriedOut] at found
    rw [List.getElem_map] at cameTo
    have cameToNext : directory.executor checks[index].command (consoles index) =
        (ending, consoles (index + 1)) := cameTo
    have attempted := directory.attempt checks[index].command (consoles index)
    rw [cameToNext] at attempted
    exact ⟨_, ending, found, attempted⟩

/--
A gate with checks comes to one record for each, and each is an attempt on the console that the ones
before it have left. The processes are those of the attempts, in order, and both streams hold what
they wrote there, one after another.
-/
theorem run_attempts_every_check (directory : Directory) (clock : Clock ClockState)
    (clockState : ClockState) (input : String) {checks : List Check} (nonempty : checks ≠ []) :
    ∃ (outcome : Outcome) (consoles : Nat → Console) (children : Nat → Option Child)
      (clockFinal : ClockState),
      Gate.run (directory.executor.timedBy clock) checks (Console.ofInput input, clockState) =
        (.ok outcome, consoles checks.length, clockFinal) ∧
      outcome.runs.map CheckRun.check = checks ∧
      consoles 0 = Console.ofInput input ∧
      (∀ index, (inRange : index < checks.length) → ∃ run, outcome.runs[index]? = some run ∧
        directory.Attempt checks[index].command (consoles index) (children index) run.ending
          (consoles (index + 1))) ∧
      (consoles checks.length).started = (List.range checks.length).filterMap children ∧
      (consoles checks.length).output.stdout =
        String.join (((List.range checks.length).filterMap children).map fun child =>
          String.join (child.readings.map Reading.report) ++ child.behaviour.stdout) ∧
      (consoles checks.length).output.stderr =
        String.join (((List.range checks.length).filterMap children).map fun child =>
          child.behaviour.stderr) := by
  have shows := directory.executor.timedBy_shows clock
  let commands := checks.map Check.command
  let consoles := directory.executor.stateAt commands (Console.ofInput input)
  let children := directory.childAt commands (Console.ofInput input)
  let ran := Gate.runAll (directory.executor.timedBy clock) checks
    (Console.ofInput input, clockState)
  have left : ran.2.1 = consoles checks.length :=
    shows.view_runAll checks (Console.ofInput input, clockState)
  have started : (consoles checks.length).started =
      (List.range checks.length).filterMap children :=
    directory.started_stateAt commands (Console.ofInput input) checks.length
  refine ⟨⟨ran.1⟩, consoles, children, ran.2.2, ?_, ?_, rfl, ?_, started, ?_, ?_⟩
  · rw [Gate.run_of_ne_nil _ nonempty, ← left]
  · exact Gate.runAll_check _ checks _
  · intro index inRange
    rcases shows.runAll_at checks (Console.ofInput input, clockState) inRange with
      ⟨run, found, _, carriedOut⟩
    refine ⟨run, found, ?_⟩
    have commandAt : commands[index]? = some checks[index].command := by
      simp [commands, inRange]
    have child : children index =
        directory.child? checks[index].command (consoles index).unread :=
      childAt_of_getElem? commandAt (Console.ofInput input)
    have attempted := directory.attempt checks[index].command (consoles index)
    have cameTo : directory.executor checks[index].command (consoles index) =
        (run.ending, consoles (index + 1)) := carriedOut
    rw [cameTo, ← child] at attempted
    exact attempted
  · rw [Console.output_eq, started]
  · rw [Console.output_eq, started]

/-- The directory that lists one program, which does the same for all arguments. -/
def ofProgram (name : String) (behaviour : Behaviour) : Directory :=
  ⟨[⟨name, .program fun _ => behaviour⟩]⟩

/--
A missing program and an argument with a zero character keep two checks from being started. The
third one, of the same program as the second, is started all the same, and takes the first line of
the input.
-/
theorem run_goes_on_after_failed_attempts :
    let checks : List Check :=
      [⟨"spell", ⟨"absent", []⟩⟩, ⟨"lint", ⟨"lint", ["\x00"]⟩⟩, ⟨"lint", ⟨"lint", ["--all"]⟩⟩]
    let directory := ofProgram "lint" ⟨1, "done\n", "", .exit 0⟩
    checks ≠ [] ∧
    ∃ (outcome : Outcome) (consoles : Nat → Console) (children : Nat → Option Child)
      (clockFinal : Unit) (child : Child),
      Gate.run (directory.executor.timedBy Clock.stopped) checks
        (Console.ofInput "one\ntwo\n", ()) = (.ok outcome, consoles 3, clockFinal) ∧
      outcome.runs.map CheckRun.check = checks ∧
      (consoles 3).started = (List.range 3).filterMap children ∧
      children 0 = none ∧ children 1 = none ∧ children 2 = some child ∧
      child.arguments = ["--all"] ∧ child.readings = [.line "one".toList] ∧
      (consoles 3).unread = "two\n".toList := by
  intro checks directory
  have nonempty : checks ≠ [] := List.cons_ne_nil _ _
  refine ⟨nonempty, ?_⟩
  rcases run_attempts_every_check directory Clock.stopped () "one\ntwo\n" nonempty with
    ⟨outcome, consoles, children, clockFinal, ran, sameChecks, atStart, attempts, started, _, _⟩
  rcases attempts 0 (by decide) with ⟨_, _, spell⟩
  rcases attempts 1 (by decide) with ⟨_, _, zero⟩
  rcases attempts 2 (by decide) with ⟨_, _, lint⟩
  have spellNone : children 0 = none := by
    rw [← Option.not_isSome_iff_eq_none, spell.isSome_iff]
    rintro ⟨_, file, _, located, _⟩
    have absent : directory.locate "absent" = .error .notFound := by rfl
    cases absent.symm.trans located
  have zeroNone : children 1 = none := by
    rw [← Option.not_isSome_iff_eq_none, zero.isSome_iff]
    rintro ⟨zeroFree, _⟩
    exact zeroFree "\x00" (by decide) (by decide)
  have present : directory.locate "lint" =
      .ok (.file ⟨"lint", .program fun _ => ⟨1, "done\n", "", .exit 0⟩⟩) := by rfl
  have lintSome : (children 2).isSome = true :=
    lint.isSome_iff.mpr ⟨by decide, _, _, present, rfl⟩
  rcases Option.isSome_iff_exists.mp lintSome with ⟨child, isChild⟩
  rcases lint.of_some child isChild with
    ⟨⟨file, _, behaviour, located, content, _, childBehaviour⟩, arguments, reading, _, _⟩
  cases present.symm.trans located
  cases content
  have unread : (consoles 2).unread = "one\ntwo\n".toList := by
    rw [(zero.of_none zeroNone).1, (spell.of_none spellNone).1, atStart]
    rfl
  rw [unread, childBehaviour] at reading
  have taken : readLines 1 "one\ntwo\n".toList = ([.line "one".toList], "two\n".toList) := by rfl
  obtain ⟨readings, left⟩ := Prod.mk.inj (taken.symm.trans reading)
  exact ⟨outcome, consoles, children, clockFinal, child, ran, sameChecks, started, spellNone,
    zeroNone, isChild, arguments, readings.symm, left.symm⟩

end Directory

end CheckGate.Host
