import CheckGate.Host.Console

/-!
# What a command does to a console

A command starts at most one process. Which one depends on the directory, on the command and on what
can still be read; the processes that were started before have no say in it. If there is no process,
the console stays as it is and the ending gives the reason.
-/

namespace CheckGate

/-- Outputs are joined stream by stream. -/
theorem Output.concat_eq (outputs : List Output) :
    concat outputs =
      ⟨String.join (outputs.map Output.stdout), String.join (outputs.map Output.stderr)⟩ := by
  induction outputs with
  | nil => rfl
  | cons output outputs ih =>
      rw [concat, ih, List.map_cons, List.map_cons, String.join_cons, String.join_cons]
      rfl

namespace Host

/-- On both streams stands what the processes wrote there, one after another. -/
theorem Console.output_eq (console : Console) :
    console.output =
      { stdout := String.join (console.started.map fun child =>
          String.join (child.readings.map Reading.report) ++ child.behaviour.stdout)
        stderr := String.join (console.started.map fun child => child.behaviour.stderr) } := by
  rw [output, Output.concat_eq, List.map_map, List.map_map]
  rfl

namespace Directory

/-- The process that a command starts, if it can be started. -/
def child? (directory : Directory) (command : Command) (unread : List Char) : Option Child :=
  match directory.executable command with
  | .ok executable => some (executable.run command.arguments unread).1
  | .error _ => none

variable {directory : Directory} {command : Command}

theorem child?_of_ok {executable : Executable}
    (startable : directory.executable command = .ok executable) (unread : List Char) :
    directory.child? command unread = some (executable.run command.arguments unread).1 := by
  simp only [child?, startable]

theorem child?_of_error {error : StartError}
    (refused : directory.executable command = .error error) (unread : List Char) :
    directory.child? command unread = none := by
  simp only [child?, refused]

theorem executor_of_ok {executable : Executable}
    (startable : directory.executable command = .ok executable) (console : Console) :
    directory.executor command console =
      Console.start executable command.arguments console := by
  unfold executor
  rw [startable]

theorem executor_of_error {error : StartError}
    (refused : directory.executable command = .error error) (console : Console) :
    directory.executor command console = (.notStarted (error.reason command.program), console) := by
  unfold executor
  rw [refused]
  rfl

theorem started_executor (directory : Directory) (command : Command) (console : Console) :
    (directory.executor command console).2.started =
      console.started ++ (directory.child? command console.unread).toList := by
  cases found : directory.executable command with
  | ok executable =>
      rw [executor_of_ok found, child?_of_ok found]
      rfl
  | error error =>
      rw [executor_of_error found, child?_of_error found]
      simp

/-- The ending of a command is that of its process, or names the cause for having none. -/
theorem ending_executor (directory : Directory) (command : Command) (console : Console) :
    (∃ child, directory.child? command console.unread = some child ∧
      (directory.executor command console).1 = child.ending) ∨
    (∃ error : StartError, directory.child? command console.unread = none ∧
      (directory.executor command console).1 = .notStarted (error.reason command.program)) := by
  cases found : directory.executable command with
  | ok executable =>
      left
      rw [executor_of_ok found, child?_of_ok found]
      exact ⟨_, rfl, rfl⟩
  | error error =>
      right
      rw [executor_of_error found, child?_of_error found]
      exact ⟨error, rfl, rfl⟩

theorem ending_executor_of_child? {console : Console} {child : Child}
    (started : directory.child? command console.unread = some child) :
    (directory.executor command console).1 = child.ending := by
  rcases directory.ending_executor command console with ⟨other, same, ending⟩ | ⟨_, none, _⟩
  · cases started.symm.trans same
    exact ending
  · cases started.symm.trans none

end Directory

end Host

end CheckGate
