import CheckGate.Host.Child
import Mathlib.Data.List.TakeWhile

/-!
# What readings take of the input

A reading takes a line with its break, or the rest of an input that has no break any more. Reading
some lines and then some more finds what reading all of them at once finds, so a fact about one
series of readings is one about the readings of all processes that share an input. Two such facts
are shown: the readings and what is left make up the input, and after a reading that met the end of
the input all others find nothing.
-/

namespace CheckGate.Host

/-- The text that a reading found, without a line break. -/
def Reading.text : Reading → List Char
  | .line text => text
  | .atEnd text => text

/-- What one reading comes to: the input has a line break and is cut at the first one, or it has
none and is taken as a whole. -/
theorem readLine_cases (input : List Char) :
    (∃ text unread, input = text ++ '\n' :: unread ∧ '\n' ∉ text ∧
      readLine input = (.line text, unread)) ∨
    ('\n' ∉ input ∧ readLine input = (.atEnd input, [])) := by
  have inLine : ∀ {text : List Char}, '\n' ∉ text →
      ∀ character ∈ text, isInLine character = true := by
    intro text noBreak character characterMem
    simp only [isInLine, bne_iff_ne, ne_eq]
    rintro rfl
    exact noBreak characterMem
  by_cases broken : '\n' ∈ input
  · left
    rcases List.eq_append_cons_of_mem broken with ⟨text, unread, rfl, noBreak⟩
    refine ⟨text, unread, rfl, noBreak, ?_⟩
    have taken : (text ++ '\n' :: unread).takeWhile isInLine = text := by
      rw [List.takeWhile_append_of_pos (inLine noBreak)]
      simp [isInLine]
    have dropped : (text ++ '\n' :: unread).dropWhile isInLine = '\n' :: unread := by
      rw [List.dropWhile_append_of_pos (inLine noBreak)]
      simp [isInLine]
    simp only [readLine, dropped, taken]
  · right
    have dropped : input.dropWhile isInLine = [] := by
      rw [List.dropWhile_eq_nil_iff]
      exact inLine broken
    refine ⟨broken, ?_⟩
    simp only [readLine, dropped]

theorem taken_readLine (input : List Char) :
    (readLine input).1.taken ++ (readLine input).2 = input := by
  rcases readLine_cases input with ⟨text, unread, rfl, _, found⟩ | ⟨_, found⟩
  · rw [found]
    simp [Reading.taken]
  · rw [found]
    simp [Reading.taken]

theorem not_mem_text_readLine (input : List Char) : '\n' ∉ (readLine input).1.text := by
  rcases readLine_cases input with ⟨text, unread, _, noBreak, found⟩ | ⟨noBreak, found⟩
  · rw [found]
    exact noBreak
  · rw [found]
    exact noBreak

theorem unread_of_readLine_atEnd {input text : List Char}
    (ended : (readLine input).1 = .atEnd text) : (readLine input).2 = [] := by
  rcases readLine_cases input with ⟨_, unread, _, _, found⟩ | ⟨_, found⟩
  · rw [found] at ended
    cases ended
  · rw [found]

@[simp]
theorem readLines_zero (input : List Char) : readLines 0 input = ([], input) := rfl

@[simp]
theorem readLines_succ (count : Nat) (input : List Char) :
    readLines (count + 1) input =
      ((readLine input).1 :: (readLines count (readLine input).2).1,
        (readLines count (readLine input).2).2) := rfl

/-- Reading goes on where it has stopped, as if it had not. -/
theorem readLines_add (first second : Nat) (input : List Char) :
    readLines (first + second) input =
      ((readLines first input).1 ++ (readLines second (readLines first input).2).1,
        (readLines second (readLines first input).2).2) := by
  induction first generalizing input with
  | zero => simp
  | succ first ih =>
      rw [Nat.add_right_comm, readLines_succ, ih]
      simp

theorem length_readLines (count : Nat) (input : List Char) :
    (readLines count input).1.length = count := by
  induction count generalizing input with
  | zero => rfl
  | succ count ih => simp [ih]

theorem taken_readLines (count : Nat) (input : List Char) :
    (readLines count input).1.flatMap Reading.taken ++ (readLines count input).2 = input := by
  induction count generalizing input with
  | zero => rfl
  | succ count ih =>
      rw [readLines_succ, List.flatMap_cons, List.append_assoc, ih, taken_readLine]

theorem not_mem_text_of_mem_readLines {count : Nat} {input : List Char} {reading : Reading}
    (readingMem : reading ∈ (readLines count input).1) : '\n' ∉ reading.text := by
  induction count generalizing input with
  | zero => cases readingMem
  | succ count ih =>
      rw [readLines_succ] at readingMem
      rcases List.mem_cons.mp readingMem with rfl | later
      · exact not_mem_text_readLine input
      · exact ih later

theorem eq_atEnd_of_mem_readLines_nil {count : Nat} {reading : Reading}
    (readingMem : reading ∈ (readLines count []).1) : reading = .atEnd [] := by
  induction count with
  | zero => cases readingMem
  | succ count ih =>
      have nothing : readLine [] = (.atEnd [], []) := rfl
      rw [readLines_succ, nothing] at readingMem
      rcases List.mem_cons.mp readingMem with isFirst | later
      · exact isFirst
      · exact ih later

/-- After a reading that met the end of the input, all others find nothing. -/
theorem eq_atEnd_of_mem_later {count : Nat} {input text : List Char} {before later : List Reading}
    (ended : (readLines count input).1 = before ++ .atEnd text :: later) {reading : Reading}
    (readingMem : reading ∈ later) : reading = .atEnd [] := by
  induction count generalizing input before with
  | zero => simp at ended
  | succ count ih =>
      rw [readLines_succ] at ended
      cases before with
      | nil =>
          rcases List.cons.inj ended with ⟨isEnd, rfl⟩
          rw [unread_of_readLine_atEnd isEnd] at readingMem
          exact eq_atEnd_of_mem_readLines_nil readingMem
      | cons first before => exact ih (List.cons.inj ended).2

example : (readLines 4 "one\n\nend".toList).1 =
    [.line "one".toList, .line [], .atEnd "end".toList, .atEnd []] := by
  decide

end CheckGate.Host
