import CheckGate.Gate

/-!
# Carrying out lists of commands

Carrying out commands, running checks and performing operations are all the same on a list: a step
is taken for each item, in the state that the steps before have left. What is said about the step
for the item with a given index holds of each of them.

An executor carries out one command. Carrying out several, one after another, is such a sequence of
steps: each command is carried out in the state that the commands before it have left, whatever
their endings were. An executor does not say how often it was called. `Executor.recorded` adds a
list of all commands that it was given, so that a statement about this list is one about every call.
-/

namespace CheckGate.Sequence

variable {State Item Result : Type}

theorem mapM_cons (step : Item → StateM State Result) (item : Item) (items : List Item)
    (state : State) :
    (item :: items).mapM step state =
      ((step item state).1 :: (items.mapM step (step item state).2).1,
        (items.mapM step (step item state).2).2) := by
  rw [List.mapM_cons]
  rfl

theorem mapM_append (step : Item → StateM State Result) (first second : List Item)
    (state : State) :
    (first ++ second).mapM step state =
      ((first.mapM step state).1 ++ (second.mapM step (first.mapM step state).2).1,
        (second.mapM step (first.mapM step state).2).2) := by
  induction first generalizing state with
  | nil => rfl
  | cons item first ih =>
      rw [List.cons_append, mapM_cons, mapM_cons, ih]
      rfl

/-- The state that the steps for the first items leave, as many of them as the index says. -/
def stateAt (step : Item → StateM State Result) (items : List Item) (state : State)
    (index : Nat) : State :=
  ((items.take index).mapM step state).2

theorem stateAt_of_length_le (step : Item → StateM State Result) {items : List Item} {index : Nat}
    (all : items.length ≤ index) (state : State) :
    stateAt step items state index = (items.mapM step state).2 := by
  simp [stateAt, List.take_of_length_le all]

/-- The step for an item is taken in the state that the steps before it have left. -/
theorem step_at (step : Item → StateM State Result) (items : List Item) (state : State)
    (index : Nat) (inRange : index < items.length) :
    ∃ result, (items.mapM step state).1[index]? = some result ∧
      step items[index] (stateAt step items state index) =
        (result, stateAt step items state (index + 1)) := by
  induction items generalizing state index with
  | nil => simp at inRange
  | cons item items ih =>
      cases index with
      | zero =>
          refine ⟨(step item state).1, ?_, ?_⟩
          · simp [mapM_cons]
          · rfl
      | succ index =>
          have tailInRange : index < items.length := by simpa using inRange
          rcases ih (step item state).2 index tailInRange with ⟨result, found, left⟩
          refine ⟨result, ?_, ?_⟩
          · simpa [mapM_cons] using found
          · simpa [stateAt, mapM_cons] using left

theorem stateAt_succ (step : Item → StateM State Result) {items : List Item} {index : Nat}
    {item : Item} (found : items[index]? = some item) (state : State) :
    stateAt step items state (index + 1) = (step item (stateAt step items state index)).2 := by
  obtain ⟨inRange, rfl⟩ := List.getElem?_eq_some_iff.mp found
  rcases step_at step items state index inRange with ⟨result, _, left⟩
  simp [left]

theorem stateAt_succ_of_none (step : Item → StateM State Result) {items : List Item}
    {index : Nat} (beyond : items[index]? = none) (state : State) :
    stateAt step items state (index + 1) = stateAt step items state index := by
  have all : items.length ≤ index := List.getElem?_eq_none_iff.mp beyond
  simp [stateAt_of_length_le step all, stateAt_of_length_le step (Nat.le_succ_of_le all)]

end CheckGate.Sequence

namespace CheckGate.Executor

variable {State : Type}

/-- Carries out commands one after another, and gives their endings in order. -/
def carryOut (executor : Executor State) (commands : List Command) :
    StateM State (List Ending) :=
  commands.mapM executor

/-- The executor that also keeps a list of all commands it was given. -/
def recorded (executor : Executor State) : Executor (State × List Command) :=
  fun command (state, given) =>
    let (ending, state) := executor command state
    (ending, state, given ++ [command])

@[simp]
theorem recorded_apply (executor : Executor State) (command : Command) (state : State)
    (given : List Command) :
    executor.recorded command (state, given) =
      ((executor command state).1, (executor command state).2, given ++ [command]) := rfl

@[simp]
theorem carryOut_nil (executor : Executor State) (state : State) :
    executor.carryOut [] state = ([], state) := rfl

@[simp]
theorem carryOut_cons (executor : Executor State) (command : Command) (commands : List Command)
    (state : State) :
    executor.carryOut (command :: commands) state =
      ((executor command state).1 ::
          (executor.carryOut commands (executor command state).2).1,
        (executor.carryOut commands (executor command state).2).2) :=
  Sequence.mapM_cons executor command commands state

theorem carryOut_append (executor : Executor State) (first second : List Command) (state : State) :
    executor.carryOut (first ++ second) state =
      ((executor.carryOut first state).1 ++
          (executor.carryOut second (executor.carryOut first state).2).1,
        (executor.carryOut second (executor.carryOut first state).2).2) :=
  Sequence.mapM_append executor first second state

/-- The state that the first commands of a list leave, as many of them as the index says. -/
def stateAt (executor : Executor State) (commands : List Command) (state : State)
    (index : Nat) : State :=
  (executor.carryOut (commands.take index) state).2

@[simp]
theorem stateAt_zero (executor : Executor State) (commands : List Command) (state : State) :
    executor.stateAt commands state 0 = state := rfl

theorem stateAt_of_length_le (executor : Executor State) {commands : List Command} {index : Nat}
    (all : commands.length ≤ index) (state : State) :
    executor.stateAt commands state index = (executor.carryOut commands state).2 :=
  Sequence.stateAt_of_length_le executor all state

theorem carryOut_at (executor : Executor State) (commands : List Command) (state : State)
    (index : Nat) (inRange : index < commands.length) :
    ∃ ending, (executor.carryOut commands state).1[index]? = some ending ∧
      executor commands[index] (executor.stateAt commands state index) =
        (ending, executor.stateAt commands state (index + 1)) :=
  Sequence.step_at executor commands state index inRange

theorem stateAt_succ (executor : Executor State) {commands : List Command} {index : Nat}
    {command : Command} (found : commands[index]? = some command) (state : State) :
    executor.stateAt commands state (index + 1) =
      (executor command (executor.stateAt commands state index)).2 :=
  Sequence.stateAt_succ executor found state

theorem stateAt_succ_of_none (executor : Executor State) {commands : List Command} {index : Nat}
    (beyond : commands[index]? = none) (state : State) :
    executor.stateAt commands state (index + 1) = executor.stateAt commands state index :=
  Sequence.stateAt_succ_of_none executor beyond state

end CheckGate.Executor
