/-!
# UTF-8

An argument of the command line is a list of bytes, which need not be a text. This file decodes
UTF-8, and tells malformed bytes apart in the way that is common for showing them: the first byte
of a character announces how many bytes continue it and which values the next one may have, and as
soon as a byte does not fit, all bytes up to it form one malformed piece. So each piece is a whole
character or a largest part of the bytes that could have begun one.

The announced ranges leave out the encodings of a character that are longer than needed, the
surrogates, and the numbers above the last character.
-/

namespace CheckGate.Utf8

/-- The values that a byte may have. -/
structure ByteRange where
  least : UInt8
  greatest : UInt8
  deriving DecidableEq

/-- Whether a byte has one of the values. -/
def ByteRange.contains (range : ByteRange) (byte : UInt8) : Bool :=
  range.least ≤ byte && byte ≤ range.greatest

/-- The values of a byte that continues a character. -/
def continuation : ByteRange := ⟨0x80, 0xBF⟩

/-- What the first byte of a character announces. -/
structure Announcement where
  /-- The bits of the character that the first byte holds, as a number. -/
  bits : Nat
  /-- The values of the bytes that have to follow, in order. -/
  ranges : List ByteRange
  deriving DecidableEq

/-- What a byte announces as the first one of a character, if it can be that. -/
def announce? (byte : UInt8) : Option Announcement :=
  if byte < 0x80 then some ⟨byte.toNat, []⟩
  else if byte < 0xC2 then none
  else if byte < 0xE0 then some ⟨byte.toNat - 0xC0, [continuation]⟩
  else if byte = 0xE0 then some ⟨0, [⟨0xA0, 0xBF⟩, continuation]⟩
  else if byte = 0xED then some ⟨0xD, [⟨0x80, 0x9F⟩, continuation]⟩
  else if byte < 0xF0 then some ⟨byte.toNat - 0xE0, [continuation, continuation]⟩
  else if byte = 0xF0 then some ⟨0, [⟨0x90, 0xBF⟩, continuation, continuation]⟩
  else if byte < 0xF4 then some ⟨byte.toNat - 0xF0, [continuation, continuation, continuation]⟩
  else if byte = 0xF4 then some ⟨4, [⟨0x80, 0x8F⟩, continuation, continuation]⟩
  else none

/--
Reads the bytes that continue a character, whose bits so far are given. The result is the
character, or `none` at the first byte that does not fit, and the bytes that were not used.
-/
def continueCharacter (bits : Nat) : List ByteRange → List UInt8 → Option Char × List UInt8
  | [], bytes => (some (Char.ofNat bits), bytes)
  | _ :: _, [] => (none, [])
  | range :: ranges, byte :: bytes =>
      if range.contains byte then
        continueCharacter (bits * 64 + byte.toNat % 64) ranges bytes
      else
        (none, byte :: bytes)

/-- Reads one piece: a character, or `none` for malformed bytes, and the bytes after it. -/
def readPiece (first : UInt8) (bytes : List UInt8) : Option Char × List UInt8 :=
  match announce? first with
  | some announcement => continueCharacter announcement.bits announcement.ranges bytes
  | none => (none, bytes)

/-- Continuing a character never lengthens what is left of the bytes. -/
theorem length_continueCharacter_le (bits : Nat) (ranges : List ByteRange) (bytes : List UInt8) :
    (continueCharacter bits ranges bytes).2.length ≤ bytes.length := by
  induction ranges generalizing bits bytes with
  | nil => simp [continueCharacter]
  | cons range ranges ih =>
      cases bytes with
      | nil => simp [continueCharacter]
      | cons byte bytes =>
          simp only [continueCharacter]
          split
          · exact Nat.le_succ_of_le (ih _ bytes)
          · exact Nat.le_refl _

/-- Reading a piece never lengthens what is left of the bytes. -/
theorem length_readPiece_le (first : UInt8) (bytes : List UInt8) :
    (readPiece first bytes).2.length ≤ bytes.length := by
  unfold readPiece
  split
  · exact length_continueCharacter_le _ _ bytes
  · exact Nat.le_refl _

/-- The pieces of a list of bytes, in order. -/
def pieces : List UInt8 → List (Option Char)
  | [] => []
  | first :: bytes =>
      let rest := (readPiece first bytes).2
      (readPiece first bytes).1 :: pieces rest
termination_by bytes => bytes.length
decreasing_by
  exact Nat.lt_succ_of_le (length_readPiece_le first bytes)

/-- The character that stands for malformed bytes. -/
def replacement : Char := '\uFFFD'

/-- The text that the bytes encode, if none of them are malformed. -/
def decode? (bytes : List UInt8) : Option String :=
  ((pieces bytes).mapM id).map String.ofList

/-- The bytes as a text, with every malformed piece replaced by one character. -/
def decodeLossy (bytes : List UInt8) : String :=
  String.ofList ((pieces bytes).map fun piece => piece.getD replacement)

/-- The bytes that encode a text. -/
def encode (text : String) : List UInt8 :=
  text.toList.flatMap String.utf8EncodeChar

end CheckGate.Utf8
