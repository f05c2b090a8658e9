import CheckGate.Ending
import CheckGate.Proofs.Delimiter
import Mathlib

/-!
# What endings and statuses tell of

The words for an ending determine it. The three kinds of endings are told apart by the first
character of their words. An exit code and a reason are all that follows; the number of a signal
ends at the first blank, since the name of the signal comes after it.

A status is that of a process, so whatever its bits are, it does not tell of a process that was not
started. Only fifteen of its bits count. The low seven decide what became of the process, and eight
more hold the code if it exited; the mark of a core dump, which lies between them, and the upper
half of the word may be anything. A status that was made from a code or from a signal therefore
tells of this code or signal, and a process that was only stopped is not taken for one that has
succeeded.
-/

namespace CheckGate.Ending

theorem isSuccess_iff {ending : Ending} : ending.isSuccess = true ↔ ending = .exited 0 := by
  cases ending <;> simp [isSuccess, code?]

theorem describe_exited (code : Int) :
    (exited code).describe = "exit code " ++ code.repr := rfl

theorem describe_killed (signal : Int) :
    (killed signal).describe =
      "killed by signal " ++ signal.repr ++ " (" ++ SignalName.ofNumber signal ++ ")" :=
  rfl

theorem describe_notStarted (reason : String) :
    (notStarted reason).describe = "could not start: " ++ reason := rfl

theorem head?_describe (ending : Ending) :
    ending.describe.toList.head? = some (match ending with
      | .exited _ => 'e'
      | .killed _ => 'k'
      | .notStarted _ => 'c') := by
  cases ending <;> simp [describe_exited, describe_killed, describe_notStarted]

theorem eq_of_describe_killed_eq {first second : Int}
    (sameText : (killed first).describe = (killed second).describe) : first = second := by
  have blankFree : ∀ number : Int, ' ' ∉ number.repr.toList :=
    Decimal.not_mem_repr (by decide) rfl
  have sameRest :
      first.repr.toList ++ ' ' :: ('(' :: (SignalName.ofNumber first).toList ++ [')']) =
        second.repr.toList ++
          ' ' :: ('(' :: (SignalName.ofNumber second).toList ++ [')']) := by
    have sameCharacters := congrArg String.toList sameText
    simpa [describe_killed] using sameCharacters
  have cut := Delimiter.cut_first (blankFree first) (blankFree second) sameRest
  exact Int.repr_injective (String.toList_injective cut.1)

theorem describe_injective : Function.Injective describe := by
  intro first second sameText
  have sameHead := congrArg (fun text => text.toList.head?) sameText
  simp only [head?_describe, Option.some.injEq] at sameHead
  cases first with
  | exited first =>
      cases second with
      | exited second =>
          have sameCode := (String.append_right_inj "exit code ").mp sameText
          rw [Int.repr_injective sameCode]
      | killed second => cases sameHead
      | notStarted second => cases sameHead
  | killed first =>
      cases second with
      | exited second => cases sameHead
      | killed second => rw [eq_of_describe_killed_eq sameText]
      | notStarted second => cases sameHead
  | notStarted first =>
      cases second with
      | exited second => cases sameHead
      | killed second => cases sameHead
      | notStarted second =>
          have sameReason := (String.append_right_inj "could not start: ").mp sameText
          rw [sameReason]

end CheckGate.Ending

namespace CheckGate.WaitStatus

theorem ending_cases (status : WaitStatus) :
    (status.signalBits.toNat = 0 ∧ status.ending = .exited status.codeBits.toNat) ∨
    (status.signalBits.toNat = 127 ∧ status.ending = .killed 0) ∨
    (1 ≤ status.signalBits.toNat ∧ status.signalBits.toNat ≤ 126 ∧
      status.ending = .killed status.signalBits.toNat) := by
  by_cases exits : status.signalBits = 0
  · left
    simp [ending, exits]
  · by_cases stopped : status.signalBits = stoppedMark
    · right
      left
      simp [ending, stopped, stoppedMark]
    · have inRange := status.signalBits.isLt
      have notZero : status.signalBits.toNat ≠ 0 := by
        simpa [BitVec.toNat_eq] using exits
      have notMark : status.signalBits.toNat ≠ 127 := by
        simpa [BitVec.toNat_eq, stoppedMark] using stopped
      right
      right
      refine ⟨?_, ?_, ?_⟩
      · omega
      · omega
      · rw [ending, if_neg exits, if_neg stopped]

theorem ending_ne_notStarted (status : WaitStatus) (reason : String) :
    status.ending ≠ .notStarted reason := by
  rcases status.ending_cases with ⟨_, tells⟩ | ⟨_, tells⟩ | ⟨_, _, tells⟩
  · simp [tells]
  · simp [tells]
  · simp [tells]

theorem isSuccess_ending_iff (status : WaitStatus) :
    status.ending.isSuccess = true ↔ status.signalBits = 0 ∧ status.codeBits = 0 := by
  rw [Ending.isSuccess_iff, BitVec.toNat_eq, BitVec.toNat_eq]
  rcases status.ending_cases with ⟨exits, tells⟩ | ⟨stopped, tells⟩ | ⟨first, _, tells⟩
  · simp [tells, exits]
  · simp [tells, stopped]
  · have notZero : status.signalBits.toNat ≠ 0 := by omega
    simp [tells, notZero]

theorem ending_of_exit {status : WaitStatus} {code : Int} (exits : status.signalBits.toNat = 0)
    (lowByte : status.codeBits.toNat = code % 256) : status.ending = .exited (code % 256) := by
  rcases status.ending_cases with ⟨_, tells⟩ | ⟨stopped, _⟩ | ⟨first, _, _⟩
  · simp [tells, lowByte]
  · omega
  · omega

theorem ending_of_death {status : WaitStatus} {signal : Int} (first : 1 ≤ signal)
    (last : signal ≤ 126) (sameNumber : status.signalBits.toNat = signal) :
    status.ending = .killed signal := by
  rcases status.ending_cases with ⟨exits, _⟩ | ⟨stopped, _⟩ | ⟨_, _, tells⟩
  · omega
  · omega
  · simp [tells, sameNumber]

theorem code_bounds {status : WaitStatus} {code : Int} (exited : status.ending = .exited code) :
    0 ≤ code ∧ code ≤ 255 := by
  have inRange := status.codeBits.isLt
  rcases status.ending_cases with ⟨_, tells⟩ | ⟨_, tells⟩ | ⟨_, _, tells⟩
  · simp only [tells, Ending.exited.injEq] at exited
    omega
  · simp [tells] at exited
  · simp [tells] at exited

theorem signal_bounds {status : WaitStatus} {signal : Int}
    (killed : status.ending = .killed signal) : 0 ≤ signal ∧ signal ≤ 126 := by
  rcases status.ending_cases with ⟨_, tells⟩ | ⟨_, tells⟩ | ⟨_, last, tells⟩
  · simp [tells] at killed
  · simp only [tells, Ending.killed.injEq] at killed
    omega
  · simp only [tells, Ending.killed.injEq] at killed
    omega

/-! ## Words as numbers -/

theorem toNat_signalBits (status : WaitStatus) :
    status.signalBits.toNat = status.word.toNat % 128 := by
  simp [signalBits]

theorem toNat_codeBits (status : WaitStatus) :
    status.codeBits.toNat = status.word.toNat / 256 % 256 := by
  simp [codeBits, Nat.shiftRight_eq_div_pow]

theorem toNat_and_lowSeven (word : BitVec 32) : (word &&& 0x7f#32).toNat = word.toNat % 128 :=
  Nat.and_two_pow_sub_one_eq_mod word.toNat 7

theorem toNat_and_lowByte (word : BitVec 32) : (word &&& 0xff#32).toNat = word.toNat % 256 :=
  Nat.and_two_pow_sub_one_eq_mod word.toNat 8

theorem toNat_word_ofExit (code : Int) : (ofExit code).word.toNat = code % 256 * 256 := by
  have fits : (code % 256).toNat * 256 < 2 ^ 32 := by omega
  have word : (ofExit code).word.toNat = (code % 256).toNat * 256 := by
    simpa [ofExit, Nat.shiftLeft_eq] using Nat.mod_eq_of_lt fits
  omega

theorem toNat_word_ofDeath (signal : Int) : (ofDeath signal).word.toNat = signal % 128 := by
  have word : (ofDeath signal).word.toNat = (signal % 128).toNat := by
    have fits : (signal % 128).toNat < 2 ^ 32 := by omega
    simpa [ofDeath] using Nat.mod_eq_of_lt fits
  omega

/-- An exit leaves the low byte of its code, as a number that is not negative. -/
theorem ending_ofExit (code : Int) : (ofExit code).ending = .exited (code % 256) := by
  have word := toNat_word_ofExit code
  apply ending_of_exit
  · rw [toNat_signalBits]
    omega
  · rw [toNat_codeBits]
    omega

theorem ending_ofDeath {signal : Int} (first : 1 ≤ signal) (last : signal ≤ 126) :
    (ofDeath signal).ending = .killed signal := by
  have word := toNat_word_ofDeath signal
  apply ending_of_death first last
  rw [toNat_signalBits]
  omega

/-! ## The bits that count -/

/-- Statuses that agree in the bits that count hold the same signal and code, and conversely. -/
theorem bits_eq_iff (first second : WaitStatus) :
    (first.signalBits = second.signalBits ∧ first.codeBits = second.codeBits) ↔
      ∀ index, index ≤ 6 ∨ 8 ≤ index ∧ index ≤ 15 →
        first.word.getLsbD index = second.word.getLsbD index := by
  constructor
  · rintro ⟨sameSignal, sameCode⟩ index (low | ⟨above, below⟩)
    · have sameBit := congrArg (fun bits => bits.getLsbD index) sameSignal
      simpa [signalBits, show index < 7 by omega] using sameBit
    · have sameBit := congrArg (fun bits => bits.getLsbD (index - 8)) sameCode
      simpa [codeBits, show index - 8 < 8 by omega, show 8 + (index - 8) = index by omega]
        using sameBit
  · intro agree
    constructor
    · apply BitVec.eq_of_getLsbD_eq
      intro index inRange
      simpa [signalBits, inRange] using agree index (by omega)
    · apply BitVec.eq_of_getLsbD_eq
      intro index inRange
      simpa [codeBits, inRange] using agree (8 + index) (by omega)

theorem getLsbD_mask : ∀ index < 32,
    (0xff7f#32).getLsbD index = decide (index ≤ 6 ∨ 8 ≤ index ∧ index ≤ 15) := by
  decide

theorem and_mask_eq_zero_iff (status : WaitStatus) :
    status.word &&& 0xff7f#32 = 0#32 ↔ status.signalBits = 0 ∧ status.codeBits = 0 := by
  have allZero : (status.signalBits = 0 ∧ status.codeBits = 0) ↔
      ∀ index, index ≤ 6 ∨ 8 ≤ index ∧ index ≤ 15 → status.word.getLsbD index = false := by
    simpa [signalBits, codeBits] using bits_eq_iff status ⟨0⟩
  rw [allZero, BitVec.eq_of_getLsbD_eq_iff]
  constructor
  · intro masked index counts
    have inRange : index < 32 := by omega
    simpa [getLsbD_mask index inRange, counts] using masked index inRange
  · intro zero index inRange
    by_cases counts : index ≤ 6 ∨ 8 ≤ index ∧ index ≤ 15
    · simp [zero index counts]
    · simp [getLsbD_mask index inRange, counts]

/--
Every word of thirty-two bits is the status of a process that was started. It tells of a success
exactly if all bits that count are zero, and of the code or the signal that it holds, whatever the
other bits are.
-/
theorem ending_of_every_word (status : WaitStatus) :
    (∀ reason, status.ending ≠ .notStarted reason) ∧
    (status.ending.isSuccess = true ↔ status.word &&& 0xff7f#32 = 0#32) ∧
    (∀ code, status.ending = .exited code → 0 ≤ code ∧ code ≤ 255) ∧
    (∀ signal, status.ending = .killed signal → 0 ≤ signal ∧ signal ≤ 126) ∧
    (∀ other : WaitStatus,
      (∀ index, index ≤ 6 ∨ 8 ≤ index ∧ index ≤ 15 →
        status.word.getLsbD index = other.word.getLsbD index) →
      status.ending = other.ending) ∧
    (∀ code : Int, status.word &&& 0x7f#32 = 0#32 →
      status.word >>> 8 &&& 0xff#32 = BitVec.ofInt 32 code &&& 0xff#32 →
      status.ending = .exited (code % 256) ∧ (status.ending.isSuccess = true ↔ 256 ∣ code)) ∧
    (∀ signal : Int, 1 ≤ signal → signal ≤ 126 →
      status.word &&& 0x7f#32 = BitVec.ofInt 32 signal →
      status.ending = .killed signal ∧ status.ending.isSuccess = false) ∧
    (status.word &&& 0x7f#32 = 0x7f#32 → status.ending.isSuccess = false) := by
  refine ⟨status.ending_ne_notStarted, ?_, ?_, ?_, ?_, ?_, ?_, ?_⟩
  · exact status.isSuccess_ending_iff.trans status.and_mask_eq_zero_iff.symm
  · intro code exited
    exact code_bounds exited
  · intro signal killed
    exact signal_bounds killed
  · intro other agree
    have sameBits := (bits_eq_iff status other).mpr agree
    simp [ending, sameBits]
  · intro code noSignal holdsCode
    have sameNumber := congrArg BitVec.toNat holdsCode
    simp only [toNat_and_lowByte, BitVec.toNat_ushiftRight, BitVec.toNat_ofInt,
      Nat.shiftRight_eq_div_pow] at sameNumber
    have exited : status.ending = .exited (code % 256) := by
      apply ending_of_exit
      · simp [toNat_signalBits, ← toNat_and_lowSeven, noSignal]
      · rw [toNat_codeBits]
        omega
    refine ⟨exited, ?_⟩
    simp only [Ending.isSuccess_iff, exited, Ending.exited.injEq]
    omega
  · intro signal first last holdsSignal
    have sameNumber := congrArg BitVec.toNat holdsSignal
    simp only [toNat_and_lowSeven, BitVec.toNat_ofInt] at sameNumber
    have killed : status.ending = .killed signal := by
      apply ending_of_death first last
      rw [toNat_signalBits]
      omega
    exact ⟨killed, by simp [killed, Ending.isSuccess, Ending.code?]⟩
  · intro holdsMark
    have notZero : status.signalBits ≠ 0 := by
      simp [BitVec.toNat_eq, toNat_signalBits, ← toNat_and_lowSeven, holdsMark]
    have noSuccess : ¬status.ending.isSuccess = true := by
      intro success
      exact notZero (status.isSuccess_ending_iff.mp success).1
    simpa using noSuccess

/-- An exit and a death, each with bits set that do not count, the highest among them. -/
theorem ending_of_negative_words :
    (⟨BitVec.ofInt 32 (-256)⟩ : WaitStatus).ending = .exited 255 ∧
      (⟨BitVec.ofInt 32 (-117)⟩ : WaitStatus).ending = .killed 11 := by
  have exit := (ending_of_every_word ⟨BitVec.ofInt 32 (-256)⟩).2.2.2.2.2.1
  have death := (ending_of_every_word ⟨BitVec.ofInt 32 (-117)⟩).2.2.2.2.2.2.1
  constructor
  · exact (exit (-1) (by decide) (by decide)).1
  · exact (death 11 (by decide) (by decide) (by decide)).1

end CheckGate.WaitStatus
