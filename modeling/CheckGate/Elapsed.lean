/-!
# Elapsed times

A run is timed in whole nanoseconds and reported in seconds with one decimal. The reported decimal
is that of the time as a binary number of fifty-three significant digits: the whole seconds and the
fraction of a second are rounded to that precision, then their sum is, and the exact value of the
result is rounded to tenths. For a time of less than half a year the outcome is a tenth nearest to
the time itself; very long times lose their last places before they come to be rounded to tenths.

Two kinds of rounding do this: rounding a quotient to a whole number, and rounding a number to a
bounded count of significant binary digits. Both take the nearest candidate and, of two equally near
ones, the even one. They are exact arithmetic on natural numbers: a quantity that may be smaller
than one is first multiplied by a power of two large enough that all it can round to is whole.
-/

namespace CheckGate.Rounding

/-- The whole number nearest to a quotient; of two equally near, the even one. -/
def quotient (numerator denominator : Nat) : Nat :=
  let below := numerator / denominator
  let twiceRest := 2 * (numerator % denominator)
  if twiceRest < denominator then
    below
  else if denominator < twiceRest then
    below + 1
  else
    below + below % 2

/-- How many of a number's binary digits are beyond the given count of significant ones. -/
def droppedDigits (precision number : Nat) : Nat :=
  number.log2 + 1 - precision

/--
The number of at most `precision` significant binary digits that is nearest to a quotient; of two
equally near, the one whose last digit is even. Numbers below the precision's range are rounded to
whole ones.
-/
def significant (precision numerator denominator : Nat) : Nat :=
  let unit := 1 <<< droppedDigits precision (numerator / denominator)
  quotient numerator (denominator * unit) * unit

end CheckGate.Rounding

namespace CheckGate

/-- A length of time. -/
structure Elapsed where
  nanoseconds : Nat
  deriving DecidableEq

namespace Elapsed

/-- How many nanoseconds make a second. -/
def perSecond : Nat := 1000000000

/-- No time at all. -/
def zero : Elapsed := ⟨0⟩

/-- The time made of whole seconds and further nanoseconds. -/
def ofParts (seconds nanoseconds : Nat) : Elapsed :=
  ⟨seconds * perSecond + nanoseconds⟩

/-- The whole seconds of a time. -/
def seconds (elapsed : Elapsed) : Nat :=
  elapsed.nanoseconds / perSecond

/-- The nanoseconds of a time beyond its whole seconds. -/
def subsecond (elapsed : Elapsed) : Nat :=
  elapsed.nanoseconds % perSecond

/-- How many significant binary digits a time in seconds is held with. -/
def precision : Nat := 53

/--
How many parts a second is counted in while a time is rounded: so many that rounding the shortest
time above zero, a nanosecond, to `precision` digits yields a whole number of parts.
-/
def partsPerSecond : Nat := 1 <<< 82

/-- The whole seconds, rounded to `precision`, in parts. -/
def secondParts (elapsed : Elapsed) : Nat :=
  Rounding.significant precision (elapsed.seconds * partsPerSecond) 1

/-- The fraction of a second, rounded to `precision`, in parts. -/
def subsecondParts (elapsed : Elapsed) : Nat :=
  Rounding.significant precision (elapsed.subsecond * partsPerSecond) perSecond

/-- The time in seconds, held with `precision` significant digits, in parts. -/
def parts (elapsed : Elapsed) : Nat :=
  Rounding.significant precision (elapsed.secondParts + elapsed.subsecondParts) 1

/-- The number of tenths of a second that a time is reported as. -/
def tenths (elapsed : Elapsed) : Nat :=
  Rounding.quotient (10 * elapsed.parts) partsPerSecond

/-- A time as it is reported: seconds with one decimal, and the unit. -/
def text (elapsed : Elapsed) : String :=
  (elapsed.tenths / 10).repr ++ "." ++ (elapsed.tenths % 10).repr ++ "s"

end Elapsed

end CheckGate
