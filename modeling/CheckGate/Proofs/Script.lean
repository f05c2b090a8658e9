import CheckGate.Proofs.Gate
import CheckGate.Script

/-!
# What becomes of the replies of a script

A script lives through any number of gates and may be given further replies between them. A script
that has run out and is given more goes on with those, so the place of a command among all others
does not tell which reply it takes. What every operation keeps is an account: the commands that were
given to the script, the endings that they came to, and the replies that were taken or are left.
Each is what it was before, followed by what the operation adds to it. A reply that uses the words
of the default answer is taken like any other, and a gate without checks changes nothing.
-/

namespace CheckGate.Script

theorem machine_shows : machine.Shows answer id where
  view_now _ := rfl
  execute_view _ _ := rfl

/-- The endings that all commands so far appeared to come to, in order. -/
def endings (script : Script) : List Ending :=
  script.exchanges.map Exchange.ending

/-- The replies that commands have taken, in order. -/
def taken (script : Script) : List Reply :=
  script.exchanges.filterMap Exchange.reply?

/-- All replies that the script was given: those that were taken, then those that are left. -/
def supply (script : Script) : List Reply :=
  script.taken ++ script.pending

/-- What happened to a script between two points in time, with nothing lost or put in between. -/
structure Accounts (before : Script) (commands : List Command) (endings : List Ending)
    (replies : List Reply) (after : Script) : Prop where
  commands_eq : after.commands = before.commands ++ commands
  endings_eq : after.endings = before.endings ++ endings
  supply_eq : after.supply = before.supply ++ replies

namespace Accounts

variable {before middle after : Script} {commands laterCommands : List Command}
  {endings laterEndings : List Ending} {replies laterReplies : List Reply}

theorem nil (script : Script) : script.Accounts [] [] [] script where
  commands_eq := by simp
  endings_eq := by simp
  supply_eq := by simp

theorem append (earlier : before.Accounts commands endings replies middle)
    (later : middle.Accounts laterCommands laterEndings laterReplies after) :
    before.Accounts (commands ++ laterCommands) (endings ++ laterEndings)
      (replies ++ laterReplies) after where
  commands_eq := by rw [later.commands_eq, earlier.commands_eq, List.append_assoc]
  endings_eq := by rw [later.endings_eq, earlier.endings_eq, List.append_assoc]
  supply_eq := by rw [later.supply_eq, earlier.supply_eq, List.append_assoc]

end Accounts

/-- A command takes the next reply, which stays part of the supply, or there is none to take. -/
theorem answer_accounts (command : Command) (script : Script) :
    script.Accounts [command] [(answer command script).1] [] (answer command script).2 where
  commands_eq := by simp [Script.commands, answer]
  endings_eq := by simp [endings, answer]
  supply_eq := by
    rcases script with ⟨pending, exchanges, instant⟩
    cases pending with
    | nil => simp [supply, taken, answer]
    | cons reply pending => simp [supply, taken, answer]

theorem carryOut_accounts (commands : List Command) (script : Script) :
    script.Accounts commands (answer.carryOut commands script).1 []
      (answer.carryOut commands script).2 := by
  induction commands generalizing script with
  | nil => exact .nil script
  | cons command commands ih =>
      rw [Executor.carryOut_cons]
      exact (answer_accounts command script).append (ih (answer command script).2)

theorem pending_carryOut (commands : List Command) (script : Script) :
    (answer.carryOut commands script).2.pending = script.pending.drop commands.length := by
  induction commands generalizing script with
  | nil => rfl
  | cons command commands ih =>
      have oneTaken : (answer command script).2.pending = script.pending.tail := rfl
      rw [Executor.carryOut_cons, ih, oneTaken, List.drop_tail, List.length_cons]

/-- What can be done with a script. -/
inductive Operation where
  | extend (replies : List Reply)
  | run (checks : List Check)

namespace Operation

/-- The commands that an operation gives to the script. -/
def commands : Operation → List Command
  | .extend _ => []
  | .run checks => checks.map Check.command

/-- The replies that an operation gives to the script. -/
def replies : Operation → List Reply
  | .extend replies => replies
  | .run _ => []

end Operation

/-- Performs an operation, and gives the endings that a gate reports. -/
def perform : Operation → StateM Script (List Ending)
  | .extend replies => fun script => ([], script.extend replies)
  | .run checks => fun script =>
      let (result, script) := Gate.run machine checks script
      (Gate.endings result, script)

/-- Performs operations one after another, and gives what each of them has reported. -/
def performAll (operations : List Operation) : StateM Script (List (List Ending)) :=
  operations.mapM perform

@[simp]
theorem performAll_nil (script : Script) : performAll [] script = ([], script) := rfl

@[simp]
theorem performAll_cons (operation : Operation) (operations : List Operation) (script : Script) :
    performAll (operation :: operations) script =
      ((perform operation script).1 :: (performAll operations (perform operation script).2).1,
        (performAll operations (perform operation script).2).2) :=
  Sequence.mapM_cons perform operation operations script

theorem performAll_append (first second : List Operation) (script : Script) :
    performAll (first ++ second) script =
      ((performAll first script).1 ++ (performAll second (performAll first script).2).1,
        (performAll second (performAll first script).2).2) :=
  Sequence.mapM_append perform first second script

/-- Running a gate on a script, even one that refuses to run, is giving it the commands. -/
theorem run_machine (checks : List Check) (script : Script) :
    (Gate.endings (Gate.run machine checks script).1, (Gate.run machine checks script).2) =
      answer.carryOut (checks.map Check.command) script :=
  (machine_shows.run checks script).symm

theorem perform_accounts (operation : Operation) (script : Script) :
    script.Accounts operation.commands (perform operation script).1 operation.replies
      (perform operation script).2 := by
  cases operation with
  | extend replies =>
      constructor
      · exact (List.append_nil _).symm
      · exact (List.append_nil _).symm
      · exact (List.append_assoc _ _ _).symm
  | run checks =>
      have carriedOut : perform (.run checks) script =
          answer.carryOut (checks.map Check.command) script := run_machine checks script
      rw [carriedOut]
      exact carryOut_accounts (checks.map Check.command) script

theorem performAll_accounts (operations : List Operation) (script : Script) :
    script.Accounts (operations.flatMap Operation.commands) (performAll operations script).1.flatten
      (operations.flatMap Operation.replies) (performAll operations script).2 := by
  induction operations generalizing script with
  | nil => exact .nil script
  | cons operation operations ih =>
      rw [performAll_cons, List.flatMap_cons, List.flatMap_cons, List.flatten_cons]
      exact (perform_accounts operation script).append (ih (perform operation script).2)

theorem answer_cases (command : Command) (script : Script) :
    (∃ reply rest, script.pending = reply :: rest ∧
      (answer command script).1 = reply.ending ∧ (answer command script).2.pending = rest ∧
      (answer command script).2.exchanges = script.exchanges ++ [⟨command, some reply⟩]) ∨
    (script.pending = [] ∧ (answer command script).1 = Exchange.unanswered ∧
      (answer command script).2.pending = [] ∧
      (answer command script).2.exchanges = script.exchanges ++ [⟨command, none⟩]) := by
  rcases script with ⟨pending, exchanges, instant⟩
  cases pending with
  | nil => exact Or.inr ⟨rfl, rfl, rfl, rfl⟩
  | cons reply rest => exact Or.inl ⟨reply, rest, rfl, rfl, rfl, rfl⟩

theorem run_at (checks : List Check) (script : Script) {index : Nat}
    (inRange : index < checks.length) :
    ∃ outcome run, (Gate.run machine checks script).1 = .ok outcome ∧
      outcome.runs[index]? = some run ∧ run.check = checks[index] ∧
      answer checks[index].command (answer.stateAt (checks.map Check.command) script index) =
        (run.ending, answer.stateAt (checks.map Check.command) script (index + 1)) := by
  have nonempty : checks ≠ [] := List.ne_nil_of_length_pos (Nat.zero_lt_of_lt inRange)
  rcases machine_shows.runAll_at checks script inRange with ⟨run, found, sameCheck, answered⟩
  have ran := congrArg Prod.fst (Gate.run_of_ne_nil machine nonempty script)
  exact ⟨_, run, ran, found, sameCheck, answered⟩

theorem stateAt_length_run (checks : List Check) (script : Script) :
    answer.stateAt (checks.map Check.command) script checks.length =
      (Gate.run machine checks script).2 := by
  rw [answer.stateAt_of_length_le (by simp), ← run_machine]

/-- A gate takes one reply for each of its checks, as long as there are any. -/
theorem length_pending_run (checks : List Check) (script : Script) :
    (Gate.run machine checks script).2.pending.length =
      script.pending.length - min checks.length script.pending.length := by
  have pending : (Gate.run machine checks script).2.pending =
      script.pending.drop checks.length := by
    have left := pending_carryOut (checks.map Check.command) script
    rwa [← run_machine, List.length_map] at left
  rw [pending, List.length_drop]
  omega

/--
After any operations on a script, its exchanges are those of all gates, in order, and no reply is
lost. A gate that is run next takes one reply for each check as long as there are any, and has the
other commands answered by default.
-/
theorem operations_account_for_every_reply (given : List Reply) (operations : List Operation) :
    let reported := (performAll operations (ofReplies given)).1.flatten
    let script := (performAll operations (ofReplies given)).2
    script.commands = operations.flatMap Operation.commands ∧
    script.exchanges.map Exchange.ending = reported ∧
    script.exchanges.filterMap Exchange.reply? ++ script.pending =
      given ++ operations.flatMap Operation.replies ∧
    ∀ checks : List Check,
      let ran := Gate.run machine checks script
      (∃ states : Nat → Script, states 0 = script ∧ states checks.length = ran.2 ∧
        ∀ index, (inRange : index < checks.length) →
          ∃ outcome run, ran.1 = .ok outcome ∧ outcome.runs[index]? = some run ∧
            run.check = checks[index] ∧
            ((∃ reply rest, (states index).pending = reply :: rest ∧
                run.ending = reply.ending ∧ (states (index + 1)).pending = rest ∧
                (states (index + 1)).exchanges =
                  (states index).exchanges ++ [⟨checks[index].command, some reply⟩]) ∨
              ((states index).pending = [] ∧
                run.ending = .notStarted "missing stubbed result" ∧
                (states (index + 1)).pending = [] ∧
                (states (index + 1)).exchanges =
                  (states index).exchanges ++ [⟨checks[index].command, none⟩]))) ∧
      ran.2.pending.length = script.pending.length - min checks.length script.pending.length ∧
      (checks = [] → ran = (.error .noChecks, script)) := by
  intro reported script
  have account := performAll_accounts operations (ofReplies given)
  refine ⟨account.commands_eq, account.endings_eq, account.supply_eq, ?_⟩
  intro checks ran
  refine ⟨⟨answer.stateAt (checks.map Check.command) script, rfl,
    stateAt_length_run checks script, ?_⟩, length_pending_run checks script, ?_⟩
  · intro index inRange
    rcases run_at checks script inRange with ⟨outcome, run, isOutcome, found, sameCheck, answered⟩
    refine ⟨outcome, run, isOutcome, found, sameCheck, ?_⟩
    have answeredBy := answer_cases checks[index].command
      (answer.stateAt (checks.map Check.command) script index)
    rw [answered] at answeredBy
    exact answeredBy
  · rintro rfl
    rfl

end CheckGate.Script
