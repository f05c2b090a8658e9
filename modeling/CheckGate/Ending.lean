/-!
# Endings

A command that was to be run comes to one of three ends: its process exits with a code, its process
is killed by a signal, or no process was started at all. Only an exit with code zero is a success;
the two other ends have no code and are never one.

The names of signals are those of a Linux system: thirty-one signals with names of their own, then
the real-time signals, which are numbered among themselves from the first one on. Every other
number, also a negative one, is the number of an unknown signal.

The system reports the end of a process as a word of thirty-two bits. Its low seven bits hold the
signal that killed the process, or zero if the process exited; then the eight bits above the lowest
byte hold the exit code. All seven low bits set mark a process that has not ended but was stopped
or continued. No other bit matters, the one that tells of a core dump included.
-/

namespace CheckGate.SignalName

/-- The names of the signals from number one on, in numerical order. -/
def standardNames : List String :=
  ["Hangup", "Interrupt", "Quit", "Illegal instruction", "Trace/breakpoint trap", "Aborted",
    "Bus error", "Floating point exception", "Killed", "User defined signal 1",
    "Segmentation fault", "User defined signal 2", "Broken pipe", "Alarm clock", "Terminated",
    "Stack fault", "Child exited", "Continued", "Stopped (signal)", "Stopped",
    "Stopped (tty input)", "Stopped (tty output)", "Urgent I/O condition",
    "CPU time limit exceeded", "File size limit exceeded", "Virtual timer expired",
    "Profiling timer expired", "Window changed", "I/O possible", "Power failure",
    "Bad system call"]

/-- The number of the first real-time signal. -/
def firstRealTime : Int := 34

/-- The number of the last real-time signal. -/
def lastRealTime : Int := 64

/-- The name of a signal that has one of its own. -/
def standard? : Int → Option String
  | .ofNat (index + 1) => standardNames[index]?
  | _ => none

/-- The name of the signal with the given number. -/
def ofNumber (signal : Int) : String :=
  match standard? signal with
  | some name => name
  | none =>
      if firstRealTime ≤ signal ∧ signal ≤ lastRealTime then
        "Real-time signal " ++ (signal - firstRealTime).repr
      else
        "Unknown signal " ++ signal.repr

end CheckGate.SignalName

namespace CheckGate

/-- How an attempt to run a command ended. -/
inductive Ending where
  | exited (code : Int)
  | killed (signal : Int)
  /-- There was no process, for the given reason. -/
  | notStarted (reason : String)
  deriving DecidableEq

namespace Ending

/-- The exit code, of a process that exited. -/
def code? : Ending → Option Int
  | .exited code => some code
  | .killed _ => none
  | .notStarted _ => none

/-- Whether the command did what it was run for. -/
def isSuccess (ending : Ending) : Bool :=
  ending.code? == some 0

/--
The ending in words, as a report states it. Every number is the number of a signal with a name, if
only that of an unknown one, so no wording is needed for a signal without a name.
-/
def describe : Ending → String
  | .exited code => "exit code " ++ code.repr
  | .killed signal =>
      "killed by signal " ++ signal.repr ++ " (" ++ SignalName.ofNumber signal ++ ")"
  | .notStarted reason => "could not start: " ++ reason

end Ending

/-- The status word of a process. -/
structure WaitStatus where
  /-- The bits of the status, as the system delivers them. -/
  word : BitVec 32
  deriving DecidableEq

namespace WaitStatus

/-- The low seven bits, which tell exits, deaths and stops apart. -/
def signalBits (status : WaitStatus) : BitVec 7 :=
  status.word.extractLsb' 0 7

/-- The second byte, which holds the code of an exit. -/
def codeBits (status : WaitStatus) : BitVec 8 :=
  status.word.extractLsb' 8 8

/-- The low bits of a process that was stopped or continued. -/
def stoppedMark : BitVec 7 := BitVec.allOnes 7

/--
The ending that a status tells of. A process that was stopped or continued has neither a code nor a
signal; it counts as killed by the signal numbered zero, which is no success.
-/
def ending (status : WaitStatus) : Ending :=
  if status.signalBits = 0 then
    .exited status.codeBits.toNat
  else if status.signalBits = stoppedMark then
    .killed 0
  else
    .killed status.signalBits.toNat

/-- The status of a process that exits with a code, of which the low byte is kept. -/
def ofExit (code : Int) : WaitStatus :=
  ⟨(BitVec.ofInt 8 code).setWidth 32 <<< 8⟩

/-- The status of a process that dies of a signal without a core dump. -/
def ofDeath (signal : Int) : WaitStatus :=
  ⟨(BitVec.ofInt 7 signal).setWidth 32⟩

end WaitStatus

end CheckGate
