import CheckGate.Host.Console
import CheckGate.Utf8

/-!
# The command line

Called without arguments, the program runs the default checks and prints their report to its
standard error, after whatever the checks themselves have written. Its exit code tells whether all
of them passed. The only argument it knows is a request for help; any other one is a mistake, and
so is a help word that is not spelled in well-formed bytes. Only the first argument is looked at.
-/

namespace CheckGate.CommandLine

open Host

/-- What the program is asked to do. -/
inductive Request where
  | check
  | help
  /-- Nothing it knows; the argument is given as it is to be shown. -/
  | unexpected (shown : String)
  deriving DecidableEq

/-- The arguments that ask for help. -/
def helpWords : List String := ["help", "--help", "-h"]

/-- What the program is asked to do by its arguments. -/
def Request.ofArguments : List (List UInt8) → Request
  | [] => .check
  | first :: _ =>
      match Utf8.decode? first with
      | some word => if helpWords.contains word then .help else .unexpected word
      | none => .unexpected (Utf8.decodeLossy first)

/-- The exit code when all checks passed, or help was asked for. -/
def successCode : Nat := 0

/-- The exit code when a check failed. -/
def failureCode : Nat := 1

/-- The exit code when the checks were not run, by mistake of the caller or of the program. -/
def mistakeCode : Nat := 2

/-- How the program is used. -/
def usage : String :=
  "usage: hygiene\n" ++
    "  runs `cargo clippy`, then `cargo test`, and exits non-zero if either fails\n"

/-- What the program does itself, apart from the checks that it runs. -/
structure Response where
  exitCode : Nat
  output : Output
  deriving DecidableEq

/-- The response to a run of the gate. -/
def Response.ofResult : Except Gate.Refusal Outcome → Response
  | .ok outcome =>
      { exitCode := if outcome.passed then successCode else failureCode
        output := RunReport.print outcome }
  | .error refusal =>
      { exitCode := mistakeCode
        output := .onStderr (RunReport.heading ++ refusal.message ++ "\n") }

/-- Does what is asked for, on the given machine. -/
def respond {State : Type} (machine : Machine State) : Request → StateM State Response
  | .check => do
      let result ← Gate.run machine Gate.defaultChecks
      return .ofResult result
  | .help => return { exitCode := successCode, output := .onStderr usage }
  | .unexpected shown =>
      return { exitCode := mistakeCode
               output := .onStderr
                (RunReport.heading ++ "unexpected argument `" ++ shown ++ "`\n" ++ usage) }

/-- A call of the program as its caller sees it. -/
structure Execution where
  exitCode : Nat
  /-- All that was written, by the checks and then by the program itself. -/
  output : Output
  started : List Child
  /-- The part of the standard input that was not read. -/
  unread : List Char
  deriving DecidableEq

/-- Calls the program with a directory of programs, a clock, an input and arguments. -/
def execute {ClockState : Type} (directory : Directory) (clock : Clock ClockState)
    (clockState : ClockState) (input : String) (arguments : List (List UInt8)) : Execution :=
  let machine := directory.executor.timedBy clock
  let (response, console, _) :=
    respond machine (Request.ofArguments arguments) (Console.ofInput input, clockState)
  { exitCode := response.exitCode
    output := console.output ++ response.output
    started := console.started
    unread := console.unread }

end CheckGate.CommandLine
