import Mathlib.Data.List.Basic

/-!
# Cutting texts at delimiters

A text that was put together from parts can be taken apart again if every part is known to end where
it does. Each statement here takes two ways of putting together the same text, and gives the
condition under which they are one: the delimiter does not occur in the parts before it, or it does
not occur in the parts after it.

Many of the parts are numbers in decimal notation. These consist of digits, but for the sign of a
negative one, so that whatever is no digit can be the delimiter after them. A text of digits without
superfluous leading zeros is the notation of one number.
-/

namespace CheckGate.Delimiter

variable {α : Type} {left right leftRest rightRest : List α}

/-- Two ways of cutting a text are one if neither first part goes on beyond the other. -/
theorem cut_unique (same : left ++ leftRest = right ++ rightRest)
    (leftEnds : ∀ next extra, left = right ++ next :: extra →
      rightRest = next :: extra ++ leftRest → False)
    (rightEnds : ∀ next extra, right = left ++ next :: extra →
      leftRest = next :: extra ++ rightRest → False) :
    left = right ∧ leftRest = rightRest := by
  rcases List.append_eq_append_iff.mp same with ⟨extra, longer, rest⟩ | ⟨extra, longer, rest⟩
  · cases extra with
    | nil => exact ⟨by simpa using longer.symm, by simpa using rest⟩
    | cons next extra => exact (rightEnds next extra longer rest).elim
  · cases extra with
    | nil => exact ⟨by simpa using longer, by simpa using rest.symm⟩
    | cons next extra => exact (leftEnds next extra longer rest).elim

/-- A text can be cut at the first occurrence of a delimiter. -/
theorem cut_first {stop : α} (leftFree : stop ∉ left) (rightFree : stop ∉ right)
    (same : left ++ stop :: leftRest = right ++ stop :: rightRest) :
    left = right ∧ leftRest = rightRest := by
  have cut := cut_unique same
    (fun next extra longer rest => by
      have nextEq : stop = next := by simpa using congrArg List.head? rest
      exact leftFree (by simp [longer, nextEq]))
    (fun next extra longer rest => by
      have nextEq : stop = next := by simpa using congrArg List.head? rest
      exact rightFree (by simp [longer, nextEq]))
  exact ⟨cut.1, (List.cons.inj cut.2).2⟩

theorem cut_last {stop : α} (leftFree : stop ∉ leftRest) (rightFree : stop ∉ rightRest)
    (same : left ++ stop :: leftRest = right ++ stop :: rightRest) :
    left = right ∧ leftRest = rightRest := by
  have cut := cut_unique same
    (fun next extra _ rest => by
      have restEq : rightRest = extra ++ stop :: leftRest := (List.cons.inj rest).2
      exact rightFree (by simp [restEq]))
    (fun next extra _ rest => by
      have restEq : leftRest = extra ++ stop :: rightRest := (List.cons.inj rest).2
      exact leftFree (by simp [restEq]))
  exact ⟨cut.1, (List.cons.inj cut.2).2⟩

/-- A delimiter of two different characters cannot begin within a part and end beyond it. -/
theorem pair_mem_of_longer {first second next : α} {shorter extra rest laterRest : List α}
    (different : first ≠ second)
    (beyond : first :: second :: rest = next :: extra ++ first :: second :: laterRest) :
    [first, second] <:+: shorter ++ next :: extra := by
  cases extra with
  | nil =>
      simp only [List.cons_append, List.nil_append, List.cons.injEq] at beyond
      rcases beyond with ⟨_, secondEq, _⟩
      exact absurd secondEq.symm different
  | cons following extra =>
      simp only [List.cons_append, List.cons.injEq] at beyond
      rcases beyond with ⟨firstEq, secondEq, _⟩
      exact ⟨shorter, extra, by simp [firstEq, secondEq]⟩

theorem cut_pair {first second : α} (different : first ≠ second)
    (leftFree : ¬[first, second] <:+: left) (rightFree : ¬[first, second] <:+: right)
    (same : left ++ first :: second :: leftRest = right ++ first :: second :: rightRest) :
    left = right ∧ leftRest = rightRest := by
  have cut := cut_unique same
    (fun next extra longer rest => by
      subst longer
      exact leftFree (pair_mem_of_longer different rest))
    (fun next extra longer rest => by
      subst longer
      exact rightFree (pair_mem_of_longer different rest))
  exact ⟨cut.1, (List.cons.inj (List.cons.inj cut.2).2).2⟩

/-- As many parts as were joined by a delimiter of two different characters can be told apart. -/
theorem parts_unique {first second : α} (different : first ≠ second) {left right : List (List α)}
    (leftFree : ∀ part ∈ left, ¬[first, second] <:+: part)
    (rightFree : ∀ part ∈ right, ¬[first, second] <:+: part)
    (sameLength : left.length = right.length)
    (same : [first, second].intercalate left = [first, second].intercalate right) :
    left = right := by
  induction left generalizing right with
  | nil => exact (List.length_eq_zero_iff.mp sameLength.symm).symm
  | cons leftPart left ih =>
      cases right with
      | nil => cases sameLength
      | cons rightPart right =>
          have sameRestLength : left.length = right.length := Nat.succ.inj sameLength
          cases left with
          | nil =>
              cases right with
              | nil => simpa using same
              | cons rightNext right => cases sameRestLength
          | cons leftNext left =>
              cases right with
              | nil => cases sameRestLength
              | cons rightNext right =>
                  rw [List.intercalate_cons_cons, List.intercalate_cons_cons, List.append_assoc,
                    List.append_assoc] at same
                  have cut := cut_pair different (leftFree _ List.mem_cons_self)
                    (rightFree _ List.mem_cons_self) same
                  have sameRest := ih
                    (fun part partMem => leftFree part (List.mem_cons_of_mem _ partMem))
                    (fun part partMem => rightFree part (List.mem_cons_of_mem _ partMem))
                    sameRestLength cut.2
                  rw [cut.1, sameRest]

end CheckGate.Delimiter

namespace CheckGate.Decimal

theorem not_mem_toDigits {character : Char} (notDigit : character.isDigit = false) (number : Nat) :
    character ∉ Nat.toDigits 10 number := by
  intro characterMem
  rw [Nat.isDigit_of_mem_toDigits (by decide) (by decide) characterMem] at notDigit
  cases notDigit

theorem not_mem_repr {character : Char} (notSign : character ≠ '-')
    (notDigit : character.isDigit = false) (number : Int) : character ∉ number.repr.toList := by
  rw [Int.repr_eq_if]
  split
  · rw [Nat.toList_repr]
    exact not_mem_toDigits notDigit _
  · rw [String.toList_append, Nat.toList_repr]
    simp [notSign, not_mem_toDigits notDigit]

/-- A text is the decimal notation of a number, without superfluous leading zeros. -/
structure Writes (text : List Char) (number : Nat) : Prop where
  nonempty : text ≠ []
  digits : ∀ character ∈ text, character.isDigit = true
  leading : text.head? = some '0' → text = ['0']
  value_eq : Nat.ofDigitChars 10 text 0 = number

theorem toDigits_eq_of_head?_eq {number : Nat}
    (zeroFirst : (Nat.toDigits 10 number).head? = some '0') : Nat.toDigits 10 number = ['0'] := by
  induction number using Nat.strongRecOn with
  | ind number ih =>
      rcases Nat.lt_or_ge number 10 with small | large
      · rw [Nat.toDigits_of_lt_base small] at zeroFirst ⊢
        simpa using zeroFirst
      · rw [Nat.toDigits_of_base_le (by decide) large,
          List.head?_append_of_ne_nil _ Nat.toDigits_ne_nil] at zeroFirst
        have frontDigits := ih (number / 10) (by omega) zeroFirst
        have frontValue : Nat.ofDigitChars 10 ['0'] 0 = number / 10 := by
          rw [← frontDigits, Nat.ofDigitChars_ten_toDigits]
        have zero : Nat.ofDigitChars 10 ['0'] 0 = 0 := rfl
        omega

theorem writes_toDigits (number : Nat) : Writes (Nat.toDigits 10 number) number where
  nonempty := Nat.toDigits_ne_nil
  digits _ := Nat.isDigit_of_mem_toDigits (by decide) (by decide)
  leading := toDigits_eq_of_head?_eq
  value_eq := Nat.ofDigitChars_ten_toDigits

end CheckGate.Decimal
