import CheckGate.RunReport

/-!
# Processes and their input

What a program does once it is started is fixed beforehand: it reads some lines of its input and
prints what it has read, writes a text to each of its outputs, and then exits or kills itself. A
`Child` records one such run from outside: which file was started, with which arguments, what it
read, and how it was going to behave.

The processes of a host read the same standard input, one after another, each from where the one
before it stopped. A process reads whole lines: it takes the characters up to the next line break
and the break itself, never more, or all that is left if there is no further break. What a reading
took is part of its result, so the readings of all processes and what is left of the input make up
the input again.
-/

namespace CheckGate.Host

/-- What one reading found. -/
inductive Reading where
  /-- A line, whose line break was taken too but is not part of the text. -/
  | line (text : List Char)
  /-- The end of the input, after a last piece of text without a line break. -/
  | atEnd (text : List Char)
  deriving DecidableEq

namespace Reading

/-- The characters that a reading took from the input. -/
def taken : Reading → List Char
  | .line text => text ++ ['\n']
  | .atEnd text => text

/-- What a process prints about a reading. -/
def report : Reading → String
  | .line text => "line:" ++ String.ofList text ++ "\n"
  | .atEnd text => "eof:" ++ String.ofList text ++ "\n"

end Reading

/-- Whether a character is part of a line, rather than the break that ends it. -/
def isInLine (character : Char) : Bool :=
  character != '\n'

/-- Reads one line, and gives the input that is left as well. -/
def readLine (input : List Char) : Reading × List Char :=
  match input.dropWhile isInLine with
  | [] => (.atEnd input, [])
  | _ :: unread => (.line (input.takeWhile isInLine), unread)

/-- Reads a number of lines in order, and gives the input that is left as well. -/
def readLines : Nat → List Char → List Reading × List Char
  | 0, input => ([], input)
  | count + 1, input =>
      let (reading, unread) := readLine input
      let (readings, unread) := readLines count unread
      (reading :: readings, unread)

/-- How a program brings its own process to an end. -/
inductive Finish where
  | exit (code : Int)
  | kill (signal : Int)
  deriving DecidableEq

/-- The status that the system reports for a process which ends itself. -/
def Finish.status : Finish → WaitStatus
  | .exit code => .ofExit code
  | .kill signal => .ofDeath signal

/-- What a program does, in this order. -/
structure Behaviour where
  lineCount : Nat
  /-- What it writes to its standard output, after its reports on the lines. -/
  stdout : String
  stderr : String
  finish : Finish
  deriving DecidableEq

/-- A run of a program. -/
structure Child where
  file : String
  arguments : List String
  /-- What it read, in order. -/
  readings : List Reading
  /-- What it was going to do. -/
  behaviour : Behaviour
  deriving DecidableEq

namespace Child

/-- All that the process wrote, the reports on its readings first. -/
def output (child : Child) : Output where
  stdout := String.join (child.readings.map Reading.report) ++ child.behaviour.stdout
  stderr := child.behaviour.stderr

/-- How the process ended. -/
def ending (child : Child) : Ending :=
  child.behaviour.finish.status.ending

end Child

end CheckGate.Host
