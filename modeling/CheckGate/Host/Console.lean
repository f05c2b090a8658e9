import CheckGate.Gate
import CheckGate.Host.Directory

/-!
# Programs on a console

A command names a program and a list of arguments. Before anything is started, the program has to
be found, and what is found has to be something that the system can run. Each of the ways in which
this fails is a `StartError`.

All processes of a host share its standard input and write to its standard outputs. A `Console`
keeps what can still be read and the processes that were started, in order; what was written is
read off the processes. A command that could not be started leaves the console as it is.
-/

namespace CheckGate.Host

/-- A program that can be started. -/
structure Executable where
  file : String
  behaviour : List String → Behaviour

/-- A run of a program with something left to read, and what it leaves of that. -/
def Executable.run (executable : Executable) (arguments : List String) (unread : List Char) :
    Child × List Char :=
  let behaviour := executable.behaviour arguments
  let (readings, unread) := readLines behaviour.lineCount unread
  ({ file := executable.file, arguments, readings, behaviour }, unread)

/-- The program at a place, if the system can start it. -/
def Place.executable : Place → Except StartError Executable
  | .directory _ => .error .permissionDenied
  | .file found =>
      match found.content with
      | .program behaviour => .ok { file := found.name, behaviour }
      | .notExecutable => .error .permissionDenied
      | .missingInterpreter => .error .notFound
      | .plainText => .error .unknownFormat
      | .directory => .error .permissionDenied

/-- Whether a text contains the zero character. -/
def hasZeroCharacter (text : String) : Bool :=
  text.toList.contains '\x00'

/-- The program that a command means on a host with the given directory. -/
def Directory.executable (directory : Directory) (command : Command) :
    Except StartError Executable :=
  if command.words.any hasZeroCharacter then
    .error .zeroCharacter
  else
    (directory.locate command.program).bind Place.executable

/-- The standard streams of a host, as its processes leave them. -/
structure Console where
  /-- The part of the standard input that no process has read. -/
  unread : List Char
  /-- The processes that were started, in order. -/
  started : List Child
  deriving DecidableEq

namespace Console

/-- A console with the given input, on which nothing was started. -/
def ofInput (input : String) : Console :=
  { unread := input.toList, started := [] }

/-- All that was written by the processes, one after another. -/
def output (console : Console) : Output :=
  .concat (console.started.map Child.output)

/-- Starts a program and waits for its end. -/
def start (executable : Executable) (arguments : List String) : StateM Console Ending :=
  fun console =>
    let (child, unread) := executable.run arguments console.unread
    (child.ending, { unread, started := console.started ++ [child] })

end Console

/-- Carries out commands with the programs of a directory. -/
def Directory.executor (directory : Directory) : Executor Console := fun command =>
  match directory.executable command with
  | .ok executable => Console.start executable command.arguments
  | .error error => return .notStarted (error.reason command.program)

end CheckGate.Host
