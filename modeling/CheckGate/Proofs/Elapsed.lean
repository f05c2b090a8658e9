import CheckGate.Elapsed
import CheckGate.Proofs.Delimiter
import CheckGate.Proofs.Rounding
import Mathlib.Algebra.Order.Group.Abs
import Mathlib.Algebra.Order.Ring.Int

/-!
# Printed times

A time is rounded three times to binary digits before it is rounded to tenths. Below two to the
twenty-fourth seconds, the binary roundings together move it by less than a nanosecond. Since half a
tenth is a whole number of nanoseconds, the tenth that is printed is still a nearest one.

All roundings keep the order, but the sum of whole seconds and fraction needs an argument. While
the seconds are exact, the next second makes up for any fraction. Once they have more digits than
are kept, the fraction is less than half of their last place and is dropped altogether.
-/

namespace CheckGate.Elapsed

open Rounding

section Texts

/-- A text is a time in seconds with one decimal, which is the given number of tenths. -/
def Shows (text : String) (tenths : Nat) : Prop :=
  ∃ (whole place : Nat) (wholeDigits placeDigits : List Char),
    text.toList = wholeDigits ++ '.' :: (placeDigits ++ ['s']) ∧
    Decimal.Writes wholeDigits whole ∧ Decimal.Writes placeDigits place ∧
    place ≤ 9 ∧ tenths = 10 * whole + place

theorem toList_seconds (whole place : Nat) :
    (whole.repr ++ "." ++ place.repr ++ "s").toList =
      Nat.toDigits 10 whole ++ '.' :: (Nat.toDigits 10 place ++ ['s']) := by
  simp

theorem toList_text (elapsed : Elapsed) :
    elapsed.text.toList =
      Nat.toDigits 10 (elapsed.tenths / 10) ++
        '.' :: (Nat.toDigits 10 (elapsed.tenths % 10) ++ ['s']) :=
  toList_seconds ..

theorem shows_text (elapsed : Elapsed) : Shows elapsed.text elapsed.tenths := by
  refine ⟨elapsed.tenths / 10, elapsed.tenths % 10, _, _, toList_text elapsed,
    Decimal.writes_toDigits _, Decimal.writes_toDigits _, ?_, ?_⟩
  · exact Nat.le_of_lt_succ (Nat.mod_lt _ (by decide))
  · exact (Nat.div_add_mod ..).symm

theorem eq_of_shows {text : String} {first second : Nat} (showsFirst : Shows text first)
    (showsSecond : Shows text second) : first = second := by
  rcases showsFirst with ⟨_, _, _, _, firstText, firstWhole, firstPlace, _, rfl⟩
  rcases showsSecond with ⟨_, _, _, _, secondText, secondWhole, secondPlace, _, rfl⟩
  have cut := Delimiter.cut_first
    (fun pointMem => absurd (firstWhole.digits _ pointMem) (by decide))
    (fun pointMem => absurd (secondWhole.digits _ pointMem) (by decide))
    (firstText.symm.trans secondText)
  rw [← firstWhole.value_eq, ← secondWhole.value_eq, ← firstPlace.value_eq,
    ← secondPlace.value_eq, cut.1, List.append_cancel_right cut.2]

theorem shows_text_iff (elapsed : Elapsed) (shown : Nat) :
    Shows elapsed.text shown ↔ shown = elapsed.tenths := by
  constructor
  · intro shows
    exact eq_of_shows shows (shows_text elapsed)
  · rintro rfl
    exact shows_text elapsed

end Texts

section Parts

theorem partsPerSecond_eq : partsPerSecond = 4835703278458516698824704 := rfl

theorem nanoseconds_eq (elapsed : Elapsed) :
    elapsed.nanoseconds = elapsed.seconds * 10 ^ 9 + elapsed.subsecond :=
  (Nat.div_add_mod' ..).symm

theorem subsecond_lt (elapsed : Elapsed) : elapsed.subsecond < 10 ^ 9 :=
  Nat.mod_lt _ (by decide)

theorem subsecondParts_error (elapsed : Elapsed) :
    Near (10 ^ 9 * 2 ^ 29) (2 * (elapsed.subsecondParts * 10 ^ 9))
      (2 * (elapsed.subsecond * partsPerSecond)) := by
  have small : elapsed.subsecond * partsPerSecond < 2 ^ (precision + 29) * perSecond := by
    have bounded := subsecond_lt elapsed
    rw [partsPerSecond_eq, precision, perSecond]
    omega
  exact significant_error (by decide) (by decide) small

theorem subsecondParts_lt (elapsed : Elapsed) : elapsed.subsecondParts < partsPerSecond := by
  have error := (subsecondParts_error elapsed).upper
  have bounded := subsecond_lt elapsed
  rw [partsPerSecond_eq] at error ⊢
  omega

/-- Up to the number of digits, whole seconds lose nothing. -/
theorem significant_seconds {seconds : Nat} (short : seconds ≤ 2 ^ 53) :
    significant precision (seconds * partsPerSecond) 1 = seconds * partsPerSecond := by
  apply significant_of_dvd (by decide)
  rcases Nat.lt_or_eq_of_le short with below | atBound
  · have dropped : droppedDigits precision (seconds * partsPerSecond) ≤ 82 := by
      apply droppedDigits_le (by decide)
      rw [partsPerSecond_eq, precision]
      omega
    exact (Nat.pow_dvd_pow 2 dropped).trans (Nat.dvd_mul_left ..)
  · have leading : (seconds * partsPerSecond).log2 ≤ 53 + 82 := by
      rw [atBound]
      decide
    rw [atBound] at leading ⊢
    exact unit_dvd_two_pow (by decide) leading

end Parts

section Error

variable {elapsed : Elapsed}

theorem parts_error (short : elapsed.seconds < 2 ^ 24) :
    Near (2 ^ 53) (2 * elapsed.parts)
      (2 * (elapsed.seconds * partsPerSecond + elapsed.subsecondParts)) := by
  have exact : elapsed.secondParts = elapsed.seconds * partsPerSecond :=
    significant_seconds (by omega)
  have small : elapsed.secondParts + elapsed.subsecondParts < 2 ^ (precision + 53) * 1 := by
    have bounded := subsecondParts_lt elapsed
    rw [exact, precision]
    rw [partsPerSecond_eq] at bounded ⊢
    omega
  have error := significant_error (by decide) Nat.one_pos small
  rw [exact, Nat.mul_one, Nat.one_mul] at error
  rwa [parts, exact]

/-- The roundings to binary digits together move a time by less than a nanosecond. -/
theorem parts_near (short : elapsed.seconds < 2 ^ 24) :
    elapsed.parts * 10 ^ 9 < elapsed.nanoseconds * partsPerSecond + partsPerSecond ∧
      elapsed.nanoseconds * partsPerSecond < elapsed.parts * 10 ^ 9 + partsPerSecond := by
  rcases subsecondParts_error elapsed with ⟨subsecondUpper, subsecondLower⟩
  rcases parts_error short with ⟨sumUpper, sumLower⟩
  rw [nanoseconds_eq]
  rw [partsPerSecond_eq] at subsecondUpper subsecondLower sumUpper sumLower ⊢
  omega

/-- The number of tenths is off by half a tenth at most. -/
theorem tenths_near (short : elapsed.seconds < 2 ^ 24) :
    Near (5 * 10 ^ 7) (elapsed.tenths * 10 ^ 8) elapsed.nanoseconds := by
  have near := parts_near short
  have error : Near partsPerSecond (2 * (elapsed.tenths * partsPerSecond))
      (2 * (10 * elapsed.parts)) := quotient_error _ (by decide)
  rw [partsPerSecond_eq] at near error
  rcases error with ⟨upper, lower⟩
  constructor <;> omega

end Error

section Order

/-- In a long time, the fraction of a second is less than half of the last place of the seconds. -/
theorem parts_of_long {elapsed : Elapsed} (long : 2 ^ 53 ≤ elapsed.seconds) :
    elapsed.parts = elapsed.secondParts := by
  apply significant_add (by decide) (unit_significant_dvd (by decide) _)
  have large : 2 ^ 53 * partsPerSecond ≤ elapsed.secondParts := by
    rw [← significant_seconds (Nat.le_refl _)]
    exact significant_mono (by decide) Nat.one_pos (Nat.mul_le_mul_right _ long)
  have unitLarge : 2 ^ (82 + 1) ≤ unit precision elapsed.secondParts := two_pow_le_unit large
  have bounded := subsecondParts_lt elapsed
  rw [partsPerSecond_eq] at bounded
  change 2 * elapsed.subsecondParts < unit precision elapsed.secondParts
  omega

theorem parts_mono {shorter longer : Elapsed}
    (ordered : shorter.nanoseconds ≤ longer.nanoseconds) : shorter.parts ≤ longer.parts := by
  have seconds : shorter.seconds ≤ longer.seconds := Nat.div_le_div_right ordered
  rcases Nat.lt_or_eq_of_le seconds with fewer | same
  · rcases Nat.lt_or_ge shorter.seconds (2 ^ 53) with short | long
    · have exact : shorter.secondParts = shorter.seconds * partsPerSecond :=
        significant_seconds (Nat.le_of_lt short)
      have next : (shorter.seconds + 1) * partsPerSecond ≤ longer.secondParts := by
        rw [← significant_seconds short]
        exact significant_mono (by decide) Nat.one_pos (Nat.mul_le_mul_right _ fewer)
      have bounded := subsecondParts_lt shorter
      apply significant_mono (by decide) Nat.one_pos
      rw [Nat.add_one_mul] at next
      omega
    · rw [parts_of_long long, parts_of_long (Nat.le_trans long seconds)]
      exact significant_mono (by decide) Nat.one_pos (Nat.mul_le_mul_right _ seconds)
  · have subseconds : shorter.subsecond ≤ longer.subsecond := by
      have shorterSum := nanoseconds_eq shorter
      have longerSum := nanoseconds_eq longer
      omega
    have fractions : shorter.subsecondParts ≤ longer.subsecondParts :=
      significant_mono (by decide) (by decide) (Nat.mul_le_mul_right _ subseconds)
    have sameParts : shorter.secondParts = longer.secondParts := by
      simp only [secondParts, same]
    apply significant_mono (by decide) Nat.one_pos
    omega

theorem tenths_mono {shorter longer : Elapsed}
    (ordered : shorter.nanoseconds ≤ longer.nanoseconds) : shorter.tenths ≤ longer.tenths := by
  apply quotient_mono (by decide)
  exact Nat.mul_le_mul_left 10 (parts_mono ordered)

end Order

/--
A time of less than two to the twenty-fourth seconds is printed as a tenth of a second that is
nearest to it, also at and beside the middle between two tenths.
-/
theorem text_shows_nearest_tenth {seconds nanoseconds : Nat} (short : seconds < 2 ^ 24)
    (fraction : nanoseconds < 10 ^ 9) :
    ∃ tenths : Nat,
      (∀ shown, Shows (ofParts seconds nanoseconds).text shown ↔ shown = tenths) ∧
      |(tenths * 10 ^ 8 : ℤ) - (seconds * 10 ^ 9 + nanoseconds)| ≤ 5 * 10 ^ 7 ∧
      ∀ other : Nat, |(tenths * 10 ^ 8 : ℤ) - (seconds * 10 ^ 9 + nanoseconds)| ≤
        |(other * 10 ^ 8 : ℤ) - (seconds * 10 ^ 9 + nanoseconds)| := by
  have shortTime : (ofParts seconds nanoseconds).seconds < 2 ^ 24 := by
    simp only [Elapsed.seconds, ofParts, perSecond]
    omega
  have exactTime : (ofParts seconds nanoseconds).nanoseconds = seconds * 10 ^ 9 + nanoseconds := rfl
  rcases tenths_near shortTime with ⟨upper, lower⟩
  rw [exactTime] at upper lower
  refine ⟨(ofParts seconds nanoseconds).tenths, shows_text_iff _, ?_, ?_⟩
  · apply abs_le.mpr
    omega
  · intro other
    rcases Nat.lt_trichotomy other (ofParts seconds nanoseconds).tenths with below | same | above
    · apply le_trans _ (neg_le_abs _)
      apply abs_le.mpr
      omega
    · rw [same]
    · apply le_trans _ (le_abs_self _)
      apply abs_le.mpr
      omega

/-- Just below the middle between two tenths, the lower one is printed. -/
theorem text_shows_tenth_below_middle :
    16777215 < 2 ^ 24 ∧ 949999999 < 10 ^ 9 ∧
      ∀ shown, Shows (ofParts 16777215 949999999).text shown ↔ shown = 167772159 := by
  rcases text_shows_nearest_tenth (by decide : 16777215 < 2 ^ 24)
    (by decide : 949999999 < 10 ^ 9) with ⟨tenths, shows, near, _⟩
  have bounds := abs_le.mp near
  obtain rfl : tenths = 167772159 := by omega
  exact ⟨by decide, by decide, shows⟩

/--
A longer time is never printed as a shorter one, however long the two are: the number of tenths that
its text shows is at least the one that the text of the other shows.
-/
theorem text_keeps_order {seconds nanoseconds laterSeconds laterNanoseconds : Nat}
    (fraction : nanoseconds < 10 ^ 9) (laterFraction : laterNanoseconds < 10 ^ 9)
    (ordered : seconds < laterSeconds ∨
      seconds = laterSeconds ∧ nanoseconds ≤ laterNanoseconds) :
    ∃ tenths laterTenths : Nat,
      (∀ shown, Shows (ofParts seconds nanoseconds).text shown ↔ shown = tenths) ∧
      (∀ shown, Shows (ofParts laterSeconds laterNanoseconds).text shown ↔ shown = laterTenths) ∧
      tenths ≤ laterTenths := by
  refine ⟨_, _, shows_text_iff _, shows_text_iff _, ?_⟩
  apply tenths_mono
  simp only [ofParts, perSecond]
  omega

/-- The order is kept where the seconds have more digits than are kept of them. -/
theorem text_keeps_order_beyond_precision :
    999999999 < 10 ^ 9 ∧ 0 < 10 ^ 9 ∧ 9007199254740992 < 9007199254740993 ∧
      ∃ tenths laterTenths : Nat,
        (∀ shown, Shows (ofParts 9007199254740992 999999999).text shown ↔ shown = tenths) ∧
        (∀ shown, Shows (ofParts 9007199254740993 0).text shown ↔ shown = laterTenths) ∧
        tenths ≤ laterTenths :=
  ⟨by decide, by decide, by decide,
    text_keeps_order (by decide) (by decide) (Or.inl (by decide))⟩

end CheckGate.Elapsed
