import CheckGate.Elapsed
import Mathlib.Algebra.Order.Ring.Nat
import Mathlib.Data.Nat.Log
import Mathlib.Tactic.Ring

/-!
# Rounding keeps the order and stays near

The numbers that a quotient can be rounded to are the multiples of a unit. Rounding moves a quotient
by half a unit at most, leaves multiples of the unit where they are, and never reverses the order of
two quotients. If the digits are counted, the unit grows with the quotient, and the order is kept
across a change of the unit since the power of two at which it changes is a multiple of both units.
-/

namespace CheckGate.Rounding

variable {numerator first second denominator factor rest precision number : Nat}

/-- Two numbers are at most the given distance apart. -/
structure Near (distance left right : Nat) : Prop where
  upper : left ≤ right + distance
  lower : right ≤ left + distance

section Quotients

theorem quotient_eq (factor : Nat) (small : rest < denominator) :
    quotient (factor * denominator + rest) denominator =
      if 2 * rest < denominator then factor
      else if denominator < 2 * rest then factor + 1
      else factor + factor % 2 := by
  have positive : 0 < denominator := by omega
  have below : (factor * denominator + rest) / denominator = factor := by
    rw [Nat.mul_comm, Nat.mul_add_div positive, Nat.div_eq_of_lt small, Nat.add_zero]
  have above : (factor * denominator + rest) % denominator = rest := by
    rw [Nat.mul_add_mod', Nat.mod_eq_of_lt small]
  simp only [quotient, below, above]

theorem exists_cut (numerator : Nat) (positive : 0 < denominator) :
    ∃ factor rest, numerator = factor * denominator + rest ∧ rest < denominator :=
  ⟨numerator / denominator, numerator % denominator, (Nat.div_add_mod' ..).symm,
    Nat.mod_lt _ positive⟩

theorem quotient_of_small (factor : Nat) (small : 2 * rest < denominator) :
    quotient (factor * denominator + rest) denominator = factor := by
  rw [quotient_eq factor (by omega), if_pos small]

theorem quotient_mul (factor : Nat) (positive : 0 < denominator) :
    quotient (factor * denominator) denominator = factor :=
  quotient_of_small factor (by simpa using positive : 2 * 0 < denominator)

theorem quotient_mono (positive : 0 < denominator) (ordered : first ≤ second) :
    quotient first denominator ≤ quotient second denominator := by
  rcases exists_cut first positive with ⟨firstFactor, firstRest, rfl, firstSmall⟩
  rcases exists_cut second positive with ⟨secondFactor, secondRest, rfl, secondSmall⟩
  rw [quotient_eq firstFactor firstSmall, quotient_eq secondFactor secondSmall]
  rcases lt_trichotomy firstFactor secondFactor with smaller | rfl | larger
  · split_ifs <;> omega
  · split_ifs <;> omega
  · exfalso
    have next : (secondFactor + 1) * denominator ≤ firstFactor * denominator :=
      Nat.mul_le_mul_right _ larger
    rw [Nat.add_one_mul] at next
    omega

/-- Rounding to a whole number moves a quotient by one half at most. -/
theorem quotient_error (numerator : Nat) (positive : 0 < denominator) :
    Near denominator (2 * (quotient numerator denominator * denominator)) (2 * numerator) := by
  rcases exists_cut numerator positive with ⟨factor, rest, rfl, small⟩
  have next : (factor + 1) * denominator = factor * denominator + denominator :=
    Nat.add_one_mul ..
  rw [quotient_eq factor small]
  split_ifs with down up
  · constructor <;> omega
  · constructor <;> omega
  · rcases Nat.mod_two_eq_zero_or_one factor with even | odd
    · rw [even, Nat.add_zero]
      constructor <;> omega
    · rw [odd]
      constructor <;> omega

end Quotients

section Digits

/-- How far apart the numbers are that a number near the given one can be rounded to. -/
def unit (precision number : Nat) : Nat :=
  2 ^ droppedDigits precision number

theorem unit_pos (precision number : Nat) : 0 < unit precision number :=
  Nat.two_pow_pos _

theorem significant_eq (precision numerator denominator : Nat) :
    significant precision numerator denominator =
      quotient numerator (denominator * unit precision (numerator / denominator)) *
        unit precision (numerator / denominator) := by
  simp only [significant, unit, Nat.one_shiftLeft]

theorem droppedDigits_le {digits : Nat} (counted : 0 < precision)
    (small : number < 2 ^ (precision + digits)) : droppedDigits precision number ≤ digits := by
  unfold droppedDigits
  by_cases zero : number = 0
  · rw [zero, Nat.log2_zero]
    omega
  · have short := (Nat.log2_lt zero).mpr small
    omega

theorem two_pow_le_unit {digits : Nat} (large : 2 ^ (precision + digits) ≤ number) :
    2 ^ (digits + 1) ≤ unit precision number := by
  have positive : number ≠ 0 := by
    have := Nat.two_pow_pos (precision + digits)
    omega
  have long := (Nat.le_log2 positive).mpr large
  apply Nat.pow_le_pow_right Nat.two_pos
  unfold droppedDigits
  omega

/-- The powers of two that are not below a number's leading digit are multiples of its unit. -/
theorem unit_dvd_two_pow {digits : Nat} (counted : 0 < precision) (large : number.log2 ≤ digits) :
    unit precision number ∣ 2 ^ digits := by
  apply Nat.pow_dvd_pow
  unfold droppedDigits
  omega

theorem significant_le {bound : Nat} (positive : 0 < denominator)
    (multiple : unit precision (numerator / denominator) ∣ bound)
    (below : numerator ≤ bound * denominator) :
    significant precision numerator denominator ≤ bound := by
  rcases multiple with ⟨count, rfl⟩
  have scaled : 0 < denominator * unit precision (numerator / denominator) :=
    Nat.mul_pos positive (unit_pos ..)
  rw [significant_eq, Nat.mul_comm _ count]
  apply Nat.mul_le_mul_right
  rw [← quotient_mul count scaled]
  apply quotient_mono scaled
  calc
    numerator ≤ unit precision (numerator / denominator) * count * denominator := below
    _ = count * (denominator * unit precision (numerator / denominator)) := by ring

theorem le_significant {bound : Nat} (positive : 0 < denominator)
    (multiple : unit precision (numerator / denominator) ∣ bound)
    (above : bound * denominator ≤ numerator) :
    bound ≤ significant precision numerator denominator := by
  rcases multiple with ⟨count, rfl⟩
  have scaled : 0 < denominator * unit precision (numerator / denominator) :=
    Nat.mul_pos positive (unit_pos ..)
  rw [significant_eq, Nat.mul_comm _ count]
  apply Nat.mul_le_mul_right
  rw [← quotient_mul count scaled]
  apply quotient_mono scaled
  calc
    count * (denominator * unit precision (numerator / denominator)) =
        unit precision (numerator / denominator) * count * denominator := by ring
    _ ≤ numerator := above

theorem significant_mono (counted : 0 < precision) (positive : 0 < denominator)
    (ordered : first ≤ second) :
    significant precision first denominator ≤ significant precision second denominator := by
  have quotients : first / denominator ≤ second / denominator := Nat.div_le_div_right ordered
  have logs : (first / denominator).log2 ≤ (second / denominator).log2 := by
    simp only [Nat.log2_eq_log_two]
    exact Nat.log_mono_right quotients
  rcases Nat.lt_or_eq_of_le logs with shorter | sameLength
  · have nonzero : second / denominator ≠ 0 := by
      intro zero
      rw [zero, Nat.log2_zero] at shorter
      omega
    have firstBelow : first ≤ 2 ^ (second / denominator).log2 * denominator := by
      apply Nat.le_of_lt
      apply (Nat.div_lt_iff_lt_mul positive).mp
      exact Nat.lt_of_lt_of_le Nat.lt_log2_self (Nat.pow_le_pow_right Nat.two_pos shorter)
    have secondAbove : 2 ^ (second / denominator).log2 * denominator ≤ second := by
      apply (Nat.le_div_iff_mul_le positive).mp
      exact Nat.log2_self_le nonzero
    exact Nat.le_trans
      (significant_le positive (unit_dvd_two_pow counted logs) firstBelow)
      (le_significant positive (unit_dvd_two_pow counted (Nat.le_refl _)) secondAbove)
  · have sameUnit : unit precision (first / denominator) =
        unit precision (second / denominator) := by
      simp only [unit, droppedDigits, sameLength]
    rw [significant_eq, significant_eq, sameUnit]
    apply Nat.mul_le_mul_right
    exact quotient_mono (Nat.mul_pos positive (unit_pos ..)) ordered

/-- Rounding to a count of digits moves a quotient by half a unit at most. -/
theorem significant_error {digits : Nat} (counted : 0 < precision) (positive : 0 < denominator)
    (small : numerator < 2 ^ (precision + digits) * denominator) :
    Near (denominator * 2 ^ digits)
      (2 * (significant precision numerator denominator * denominator)) (2 * numerator) := by
  have unitSmall : unit precision (numerator / denominator) ≤ 2 ^ digits := by
    apply Nat.pow_le_pow_right Nat.two_pos
    apply droppedDigits_le counted
    exact (Nat.div_lt_iff_lt_mul positive).mpr small
  have scaledSmall := Nat.mul_le_mul_left denominator unitSmall
  rcases quotient_error numerator
    (Nat.mul_pos positive (unit_pos precision (numerator / denominator))) with ⟨upper, lower⟩
  have rounded : significant precision numerator denominator * denominator =
      quotient numerator (denominator * unit precision (numerator / denominator)) *
        (denominator * unit precision (numerator / denominator)) := by
    rw [significant_eq]
    ring
  rw [rounded]
  constructor <;> omega

/-- Less than a unit does not change the unit of a number that is a multiple of it. -/
theorem unit_add (counted : 0 < precision) (representable : unit precision number ∣ number)
    (small : rest < unit precision number) :
    unit precision (number + rest) = unit precision number := by
  by_cases zero : number = 0
  · have noRest : rest = 0 := by
      have one : unit precision number = 1 := by
        simp [unit, droppedDigits, zero]
        omega
      omega
    rw [noRest, Nat.add_zero]
  · have next : number + unit precision number ≤ 2 ^ (number.log2 + 1) := by
      have room := Nat.le_of_dvd (Nat.sub_pos_of_lt Nat.lt_log2_self)
        (Nat.dvd_sub (unit_dvd_two_pow counted (Nat.le_succ _)) representable)
      have below := Nat.lt_log2_self (n := number)
      omega
    have sameLog : (number + rest).log2 = number.log2 := by
      apply (Nat.log2_eq_iff (by omega)).mpr
      have leading := Nat.log2_self_le zero
      omega
    simp only [unit, droppedDigits, sameLog]

/-- Less than half a unit is dropped from a number that is a multiple of it. -/
theorem significant_add (counted : 0 < precision) (representable : unit precision number ∣ number)
    (small : 2 * rest < unit precision number) :
    significant precision (number + rest) 1 = number := by
  rw [significant_eq, Nat.div_one, Nat.one_mul, unit_add counted representable (by omega)]
  rcases representable with ⟨count, multiple⟩
  generalize unit precision number = size at multiple small ⊢
  rw [multiple, Nat.mul_comm size count, quotient_of_small count small]

theorem significant_of_dvd (counted : 0 < precision)
    (representable : unit precision number ∣ number) : significant precision number 1 = number := by
  have nothing : 2 * 0 < unit precision number := unit_pos ..
  simpa using significant_add counted representable nothing

/-- What a number is rounded to is a multiple of its own unit. -/
theorem unit_significant_dvd (counted : 0 < precision) (number : Nat) :
    unit precision (significant precision number 1) ∣ significant precision number 1 := by
  have size : number ≤ 2 ^ (precision + droppedDigits precision number) := by
    apply Nat.le_of_lt
    apply Nat.lt_of_lt_of_le Nat.lt_log2_self
    apply Nat.pow_le_pow_right Nat.two_pos
    unfold droppedDigits
    omega
  have bounded : significant precision number 1 ≤
      2 ^ (precision + droppedDigits precision number) := by
    apply significant_le Nat.one_pos
    · rw [Nat.div_one]
      exact Nat.pow_dvd_pow 2 (Nat.le_add_left ..)
    · simpa using size
  rcases Nat.lt_or_eq_of_le bounded with below | carried
  · have sameUnit : unit precision number ∣ significant precision number 1 := by
      rw [significant_eq, Nat.div_one]
      exact Nat.dvd_mul_left ..
    exact (Nat.pow_dvd_pow 2 (droppedDigits_le counted below)).trans sameUnit
  · rw [carried]
    apply unit_dvd_two_pow counted
    rw [Nat.log2_two_pow]

end Digits

end CheckGate.Rounding
