import CheckGate.Gate

/-!
# Scripts

A script stands in for real programs: it holds the endings that the next commands are to come to,
in order, and a pause to be taken before each of them. Nothing is run. The script remembers every
command it was given and the reply that the command took, and its clock moves by the pauses alone.

A command that finds no reply left comes to an end too: it appears not to have been started.
-/

namespace CheckGate

/-- What a script has ready for one command. -/
structure Reply where
  /-- The ending that the command appears to come to. -/
  ending : Ending
  /-- The time that this takes, in milliseconds. -/
  pause : Nat
  deriving DecidableEq

namespace Reply

/-- How many nanoseconds make a millisecond. -/
def perMillisecond : Nat := 1000000

/-- The time that the reply keeps its command waiting. -/
def delay (reply : Reply) : Elapsed :=
  ⟨reply.pause * perMillisecond⟩

end Reply

/-- A command that a script was given, and what it took. -/
structure Exchange where
  command : Command
  /-- The reply that the command took, if one was left. -/
  reply? : Option Reply
  deriving DecidableEq

namespace Exchange

/-- The ending of a command for which no reply is left. -/
def unanswered : Ending :=
  .notStarted "missing stubbed result"

/-- The ending that the command appeared to come to. -/
def ending (exchange : Exchange) : Ending :=
  match exchange.reply? with
  | some reply => reply.ending
  | none => unanswered

/-- The time that the command was kept waiting. -/
def delay (exchange : Exchange) : Elapsed :=
  match exchange.reply? with
  | some reply => reply.delay
  | none => .zero

end Exchange

/-- The replies to come and the exchanges so far. -/
structure Script where
  /-- The replies that no command has taken yet, the next one first. -/
  pending : List Reply
  /-- All exchanges so far, in order. -/
  exchanges : List Exchange
  /-- Where the clock of the script stands. -/
  instant : Instant
  deriving DecidableEq

namespace Script

/-- A script that was given no command yet. -/
def ofReplies (replies : List Reply) : Script :=
  { pending := replies, exchanges := [], instant := 0 }

/-- The script with further replies after those it holds. -/
def extend (script : Script) (replies : List Reply) : Script :=
  { script with pending := script.pending ++ replies }

/-- The commands of all exchanges so far, in order. -/
def commands (script : Script) : List Command :=
  script.exchanges.map Exchange.command

/-- Lets a command take the next reply, and waits for its pause. -/
def answer : Executor Script := fun command script =>
  let exchange : Exchange := { command, reply? := script.pending.head? }
  (exchange.ending,
    { pending := script.pending.tail
      exchanges := script.exchanges ++ [exchange]
      instant := script.instant + exchange.delay.nanoseconds })

/-- The machine that a script makes. -/
def machine : Machine Script where
  execute := answer
  now := fun script => (script.instant, script)

/-- Whether some command was kept waiting. -/
def hasDelay (script : Script) : Bool :=
  script.exchanges.any fun exchange => 0 < exchange.delay.nanoseconds

/-- For each run, whether its measured time covers the delay of the exchange in the same place. -/
def coversDelays (script : Script) (outcome : Outcome) : List Bool :=
  outcome.runs.zipWith
    (fun run exchange => decide (exchange.delay.nanoseconds ≤ run.elapsed.nanoseconds))
    script.exchanges

end Script

end CheckGate
