import CheckGate.Utf8
import Mathlib.Data.List.Forall2

/-!
# Decoding undoes encoding

The first byte of a character announces how many bytes continue it and what the next one may be. The
announced values are exactly those with which a character can be put together from six bits of each
byte: with any other value, the number would have a shorter encoding, be a surrogate, or lie above
the last character. So the bytes that are read as one character are those that encode it.

Piece by piece this goes over to texts. Bytes are decoded to a text exactly if they encode it, and
all other bytes are shown with a replacement in them.
-/

namespace CheckGate.Utf8

variable {first byte : UInt8} {tail bytes rest : List UInt8} {character : Char}

/-- The given bits followed by six bits of each byte, as a number. -/
def joinBits (bits : Nat) (tail : List UInt8) : Nat :=
  tail.foldl (fun bits byte => bits * 64 + byte.toNat % 64) bits

/-- The bytes have, one by one, the values of the ranges. -/
def Fit (ranges : List ByteRange) (tail : List UInt8) : Prop :=
  List.Forall₂ (fun range byte => range.contains byte = true) ranges tail

/-- The bytes are what is read as the given character. -/
def Spells (first : UInt8) (tail : List UInt8) (character : Char) : Prop :=
  ∃ announcement, announce? first = some announcement ∧ Fit announcement.ranges tail ∧
    character = Char.ofNat (joinBits announcement.bits tail)

@[simp]
theorem joinBits_nil (bits : Nat) : joinBits bits [] = bits := rfl

@[simp]
theorem joinBits_cons (bits : Nat) (byte : UInt8) (tail : List UInt8) :
    joinBits bits (byte :: tail) = joinBits (bits * 64 + byte.toNat % 64) tail := rfl

theorem contains_iff {range : ByteRange} :
    range.contains byte = true ↔
      range.least.toNat ≤ byte.toNat ∧ byte.toNat ≤ range.greatest.toNat := by
  simp [ByteRange.contains, UInt8.le_iff_toNat_le]

theorem contains_continuation_iff :
    continuation.contains byte = true ↔ 0x80 ≤ byte.toNat ∧ byte.toNat ≤ 0xBF :=
  contains_iff

section Announcements

theorem announce?_eq (first : UInt8) :
    announce? first =
      if first.toNat < 0x80 then some ⟨first.toNat, []⟩
      else if first.toNat < 0xC2 then none
      else if first.toNat < 0xE0 then some ⟨first.toNat - 0xC0, [continuation]⟩
      else if first.toNat = 0xE0 then some ⟨0, [⟨0xA0, 0xBF⟩, continuation]⟩
      else if first.toNat = 0xED then some ⟨0xD, [⟨0x80, 0x9F⟩, continuation]⟩
      else if first.toNat < 0xF0 then some ⟨first.toNat - 0xE0, [continuation, continuation]⟩
      else if first.toNat = 0xF0 then some ⟨0, [⟨0x90, 0xBF⟩, continuation, continuation]⟩
      else if first.toNat < 0xF4 then
        some ⟨first.toNat - 0xF0, [continuation, continuation, continuation]⟩
      else if first.toNat = 0xF4 then some ⟨4, [⟨0x80, 0x8F⟩, continuation, continuation]⟩
      else none := by
  simp only [announce?, UInt8.lt_iff_toNat_lt, ← UInt8.toNat_inj]
  rfl

theorem announce?_one (lead : first.toNat < 0x80) :
    announce? first = some ⟨first.toNat, []⟩ := by
  simp [announce?_eq, lead]

theorem announce?_two (lower : 0xC2 ≤ first.toNat) (upper : first.toNat < 0xE0) :
    announce? first = some ⟨first.toNat - 0xC0, [continuation]⟩ := by
  rw [announce?_eq, if_neg (by omega), if_neg (by omega), if_pos upper]

/-- Of three bytes, the first two rule out shorter encodings and surrogates. -/
theorem announce?_three (lower : 0xE0 ≤ first.toNat) (upper : first.toNat < 0xF0) :
    ∃ second : ByteRange, announce? first = some ⟨first.toNat - 0xE0, [second, continuation]⟩ ∧
      ∀ byte, second.contains byte = true ↔ continuation.contains byte = true ∧
        0x20 ≤ joinBits (first.toNat - 0xE0) [byte] ∧
        ¬(0x360 ≤ joinBits (first.toNat - 0xE0) [byte] ∧
          joinBits (first.toNat - 0xE0) [byte] < 0x380) := by
  by_cases least : first.toNat = 0xE0
  · refine ⟨⟨0xA0, 0xBF⟩, by simp [announce?_eq, least], ?_⟩
    intro byte
    simp [contains_iff, continuation, least]
    omega
  by_cases beforeSurrogates : first.toNat = 0xED
  · refine ⟨⟨0x80, 0x9F⟩, by simp [announce?_eq, beforeSurrogates], ?_⟩
    intro byte
    simp [contains_iff, continuation, beforeSurrogates]
    omega
  · refine ⟨continuation, ?_, ?_⟩
    · rw [announce?_eq, if_neg (by omega), if_neg (by omega), if_neg (by omega), if_neg least,
        if_neg beforeSurrogates, if_pos upper]
    · intro byte
      simp only [contains_continuation_iff, joinBits_cons, joinBits_nil]
      omega

/-- Of four bytes, the first two rule out shorter encodings and numbers above all characters. -/
theorem announce?_four (lower : 0xF0 ≤ first.toNat) (upper : first.toNat < 0xF5) :
    ∃ second : ByteRange,
      announce? first = some ⟨first.toNat - 0xF0, [second, continuation, continuation]⟩ ∧
      ∀ byte, second.contains byte = true ↔ continuation.contains byte = true ∧
        0x10 ≤ joinBits (first.toNat - 0xF0) [byte] ∧
        joinBits (first.toNat - 0xF0) [byte] < 0x110 := by
  by_cases least : first.toNat = 0xF0
  · refine ⟨⟨0x90, 0xBF⟩, by simp [announce?_eq, least], ?_⟩
    intro byte
    simp [contains_iff, continuation, least]
    omega
  by_cases greatest : first.toNat = 0xF4
  · refine ⟨⟨0x80, 0x8F⟩, by simp [announce?_eq, greatest], ?_⟩
    intro byte
    simp [contains_iff, continuation, greatest]
    omega
  · refine ⟨continuation, ?_, ?_⟩
    · have below : first.toNat < 0xF4 := by omega
      rw [announce?_eq, if_neg (by omega), if_neg (by omega), if_neg (by omega),
        if_neg (by omega), if_neg (by omega), if_neg (by omega), if_neg least, if_pos below]
    · intro byte
      simp only [contains_continuation_iff, joinBits_cons, joinBits_nil]
      omega

theorem lead_of_announce? {announcement : Announcement}
    (announced : announce? first = some announcement) :
    first.toNat < 0x80 ∨ (0xC2 ≤ first.toNat ∧ first.toNat < 0xE0) ∨
      (0xE0 ≤ first.toNat ∧ first.toNat < 0xF0) ∨
      (0xF0 ≤ first.toNat ∧ first.toNat < 0xF5) := by
  rw [announce?_eq] at announced
  grind

end Announcements

section Characters

theorem toNat_character {number : Nat} (valid : number.isValidChar) :
    (Char.ofNat number).toNat = number := by
  rw [Char.ofNat, dif_pos valid]
  rfl

theorem map_toNat_utf8EncodeChar (character : Char) :
    (String.utf8EncodeChar character).map UInt8.toNat =
      if character.toNat < 0x80 then [character.toNat]
      else if character.toNat < 0x800 then
        [character.toNat / 64 + 0xC0, character.toNat % 64 + 0x80]
      else if character.toNat < 0x10000 then
        [character.toNat / 4096 + 0xE0, character.toNat / 64 % 64 + 0x80,
          character.toNat % 64 + 0x80]
      else
        [character.toNat / 262144 + 0xF0, character.toNat / 4096 % 64 + 0x80,
          character.toNat / 64 % 64 + 0x80, character.toNat % 64 + 0x80] := by
  have valid : character.toNat.isValidChar := character.valid
  unfold Nat.isValidChar at valid
  simp only [String.utf8EncodeChar, Char.toNat_val]
  split_ifs <;> simp <;> omega

/-- Only the bytes that encode a character are read as it. -/
theorem Spells.utf8EncodeChar_eq (spells : Spells first tail character) :
    String.utf8EncodeChar character = first :: tail := by
  have injective : Function.Injective UInt8.toNat := fun _ _ => UInt8.toNat_inj.mp
  apply List.map_injective_iff.mpr injective
  rcases spells with ⟨announcement, announced, fit, number⟩
  have value : (joinBits announcement.bits tail).isValidChar →
      character.toNat = joinBits announcement.bits tail := by
    rw [number]
    exact toNat_character
  unfold Nat.isValidChar at value
  rw [map_toNat_utf8EncodeChar]
  rcases lead_of_announce? announced with one | ⟨lower, upper⟩ | ⟨lower, upper⟩ | ⟨lower, upper⟩
  · obtain rfl := Option.some.inj ((announce?_one one).symm.trans announced)
    rcases fit with _ | _
    simp only [joinBits_nil] at value
    rw [value (by omega), if_pos one]
    rfl
  · obtain rfl := Option.some.inj ((announce?_two lower upper).symm.trans announced)
    rcases fit with _ | ⟨second, _ | _⟩
    simp only [contains_continuation_iff, joinBits_cons, joinBits_nil]
      at second value
    rw [value (by omega), if_neg (by omega), if_pos (by omega)]
    simp only [List.map_cons, List.map_nil, List.cons.injEq, and_true]
    omega
  · rcases announce?_three lower upper with ⟨range, announcedThree, contains⟩
    obtain rfl := Option.some.inj (announcedThree.symm.trans announced)
    rcases fit with _ | ⟨second, _ | ⟨third, _ | _⟩⟩
    simp only [contains, contains_continuation_iff, joinBits_cons, joinBits_nil]
      at second third value
    rw [value (by omega), if_neg (by omega), if_neg (by omega), if_pos (by omega)]
    simp only [List.map_cons, List.map_nil, List.cons.injEq, and_true]
    omega
  · rcases announce?_four lower upper with ⟨range, announcedFour, contains⟩
    obtain rfl := Option.some.inj (announcedFour.symm.trans announced)
    rcases fit with _ | ⟨second, _ | ⟨third, _ | ⟨fourth, _ | _⟩⟩⟩
    simp only [contains, contains_continuation_iff, joinBits_cons, joinBits_nil]
      at second third fourth value
    rw [value (by omega), if_neg (by omega), if_neg (by omega), if_neg (by omega)]
    simp only [List.map_cons, List.map_nil, List.cons.injEq, and_true]
    omega

theorem exists_spells (character : Char) :
    ∃ first tail, String.utf8EncodeChar character = first :: tail ∧
      Spells first tail character := by
  have encoded := map_toNat_utf8EncodeChar character
  have valid : character.toNat.isValidChar := character.valid
  unfold Nat.isValidChar at valid
  have numbered {bits : Nat} {tail : List UInt8} (number : joinBits bits tail = character.toNat) :
      character = Char.ofNat (joinBits bits tail) := by
    rw [number, Char.ofNat_toNat]
  split_ifs at encoded with one two three
  · rcases List.map_eq_singleton_iff.mp encoded with ⟨first, encoded, lead⟩
    exact ⟨first, [], encoded, _, announce?_one (by omega), .nil, numbered lead⟩
  · simp only [List.map_eq_cons_iff, List.map_eq_nil_iff] at encoded
    rcases encoded with ⟨first, _, encoded, lead, second, _, rfl, secondBits, rfl⟩
    refine ⟨first, [second], encoded, _, announce?_two (by omega) (by omega),
      .cons ?_ .nil, numbered ?_⟩
    · rw [contains_continuation_iff]
      omega
    · simp only [joinBits_cons, joinBits_nil]
      omega
  · simp only [List.map_eq_cons_iff, List.map_eq_nil_iff] at encoded
    rcases encoded with
      ⟨first, _, encoded, lead, second, _, rfl, secondBits, third, _, rfl, thirdBits, rfl⟩
    have lower : 0xE0 ≤ first.toNat := by omega
    have upper : first.toNat < 0xF0 := by omega
    rcases announce?_three lower upper with ⟨range, announced, contains⟩
    refine ⟨first, [second, third], encoded, _, announced, .cons ?_ (.cons ?_ .nil), numbered ?_⟩
    · simp only [contains, contains_continuation_iff, joinBits_cons, joinBits_nil]
      omega
    · rw [contains_continuation_iff]
      omega
    · simp only [joinBits_cons, joinBits_nil]
      omega
  · simp only [List.map_eq_cons_iff, List.map_eq_nil_iff] at encoded
    rcases encoded with ⟨first, _, encoded, lead, second, _, rfl, secondBits, third, _, rfl,
      thirdBits, fourth, _, rfl, fourthBits, rfl⟩
    have lower : 0xF0 ≤ first.toNat := by omega
    have upper : first.toNat < 0xF5 := by omega
    rcases announce?_four lower upper with ⟨range, announced, contains⟩
    refine ⟨first, [second, third, fourth], encoded, _, announced,
      .cons ?_ (.cons ?_ (.cons ?_ .nil)), numbered ?_⟩
    · simp only [contains, contains_continuation_iff, joinBits_cons, joinBits_nil]
      omega
    · rw [contains_continuation_iff]
      omega
    · rw [contains_continuation_iff]
      omega
    · simp only [joinBits_cons, joinBits_nil]
      omega

theorem continueCharacter_append {ranges : List ByteRange} (fit : Fit ranges tail) (bits : Nat)
    (rest : List UInt8) :
    continueCharacter bits ranges (tail ++ rest) =
      (some (Char.ofNat (joinBits bits tail)), rest) := by
  induction fit generalizing bits with
  | nil => rfl
  | cons contains _ ih =>
      simp only [List.cons_append, continueCharacter, if_pos contains, ih]
      rfl

theorem exists_fit_of_continueCharacter {ranges : List ByteRange} {bits : Nat}
    (read : continueCharacter bits ranges bytes = (some character, rest)) :
    ∃ tail, Fit ranges tail ∧ character = Char.ofNat (joinBits bits tail) ∧
      bytes = tail ++ rest := by
  induction ranges generalizing bits bytes with
  | nil =>
      cases read
      exact ⟨[], .nil, rfl, rfl⟩
  | cons range ranges ih =>
      cases bytes with
      | nil => cases read
      | cons byte bytes =>
          simp only [continueCharacter] at read
          split at read
          case isTrue contains =>
            rcases ih read with ⟨tail, fit, number, rfl⟩
            exact ⟨byte :: tail, .cons contains fit, number, rfl⟩
          case isFalse => cases read

theorem readPiece_of_spells (spells : Spells first tail character) (rest : List UInt8) :
    readPiece first (tail ++ rest) = (some character, rest) := by
  rcases spells with ⟨announcement, announced, fit, rfl⟩
  simp only [readPiece, announced]
  exact continueCharacter_append fit announcement.bits rest

theorem exists_spells_of_readPiece (read : readPiece first bytes = (some character, rest)) :
    ∃ tail, Spells first tail character ∧ bytes = tail ++ rest := by
  unfold readPiece at read
  split at read
  · rename_i announcement announced
    rcases exists_fit_of_continueCharacter read with ⟨tail, fit, number, cut⟩
    exact ⟨tail, ⟨announcement, announced, fit, number⟩, cut⟩
  · cases read

end Characters

section Texts

theorem pieces_cons (first : UInt8) (bytes : List UInt8) :
    pieces (first :: bytes) = (readPiece first bytes).1 :: pieces (readPiece first bytes).2 := by
  rw [pieces]

theorem pieces_utf8EncodeChar_append (character : Char) (rest : List UInt8) :
    pieces (String.utf8EncodeChar character ++ rest) = some character :: pieces rest := by
  rcases exists_spells character with ⟨first, tail, encoded, spells⟩
  rw [encoded, List.cons_append, pieces_cons, readPiece_of_spells spells]

theorem pieces_flatMap (characters : List Char) :
    pieces (characters.flatMap String.utf8EncodeChar) = characters.map some := by
  induction characters with
  | nil => simp [pieces]
  | cons character characters ih =>
      rw [List.flatMap_cons, pieces_utf8EncodeChar_append, ih, List.map_cons]

theorem eq_flatMap_of_pieces_eq {characters : List Char}
    (wellFormed : pieces bytes = characters.map some) :
    bytes = characters.flatMap String.utf8EncodeChar := by
  induction characters generalizing bytes with
  | nil =>
      cases bytes with
      | nil => rfl
      | cons first bytes => simp [pieces_cons] at wellFormed
  | cons character characters ih =>
      cases bytes with
      | nil => simp [pieces] at wellFormed
      | cons first bytes =>
          simp only [pieces_cons, List.map_cons, List.cons.injEq] at wellFormed
          rcases exists_spells_of_readPiece (Prod.ext wellFormed.1 rfl) with ⟨tail, spells, cut⟩
          rw [List.flatMap_cons, spells.utf8EncodeChar_eq, ← ih wellFormed.2, List.cons_append,
            ← cut]

theorem exists_characters_or_none_mem (found : List (Option Char)) :
    (∃ characters : List Char, found = characters.map some) ∨ none ∈ found := by
  induction found with
  | nil => exact Or.inl ⟨[], rfl⟩
  | cons piece found ih =>
      cases piece with
      | none => exact Or.inr List.mem_cons_self
      | some character =>
          rcases ih with ⟨characters, rfl⟩ | noneMem
          · exact Or.inl ⟨character :: characters, rfl⟩
          · exact Or.inr (List.mem_cons_of_mem _ noneMem)

/-- Bytes encode a text, or there is a malformed piece in them. -/
theorem exists_encode_or_none_mem (bytes : List UInt8) :
    (∃ text, bytes = encode text) ∨ none ∈ pieces bytes := by
  rcases exists_characters_or_none_mem (pieces bytes) with ⟨characters, wellFormed⟩ | noneMem
  · refine Or.inl ⟨String.ofList characters, ?_⟩
    rw [encode, String.toList_ofList]
    exact eq_flatMap_of_pieces_eq wellFormed
  · exact Or.inr noneMem

theorem mapM_id_map_some (characters : List Char) :
    (characters.map some).mapM id = some characters := by
  induction characters with
  | nil => rfl
  | cons character characters ih => simp [ih]

theorem mapM_id_of_none_mem {found : List (Option Char)} (noneMem : none ∈ found) :
    found.mapM id = none := by
  induction found with
  | nil => cases noneMem
  | cons piece found ih =>
      rcases List.mem_cons.mp noneMem with rfl | later
      · simp
      · cases piece <;> simp [ih later]

theorem decode?_encode (text : String) : decode? (encode text) = some text := by
  rw [decode?, encode, pieces_flatMap, mapM_id_map_some, Option.map_some, String.ofList_toList]

theorem decode?_eq_some_iff {text : String} : decode? bytes = some text ↔ bytes = encode text := by
  constructor
  · intro decoded
    rcases exists_encode_or_none_mem bytes with ⟨encoded, rfl⟩ | noneMem
    · rw [decode?_encode, Option.some.injEq] at decoded
      rw [decoded]
    · simp [decode?, mapM_id_of_none_mem noneMem] at decoded
  · rintro rfl
    exact decode?_encode text

theorem decodeLossy_encode (text : String) : decodeLossy (encode text) = text := by
  simp [decodeLossy, encode, pieces_flatMap, Function.comp_def]

/-- What is shown for bytes that encode no text contains a replacement. -/
theorem replacement_mem_decodeLossy (malformed : ∀ text, bytes ≠ encode text) :
    replacement ∈ (decodeLossy bytes).toList := by
  rcases exists_encode_or_none_mem bytes with ⟨text, encoded⟩ | noneMem
  · exact absurd encoded (malformed text)
  · rw [decodeLossy, String.toList_ofList]
    exact List.mem_map.mpr ⟨none, noneMem, rfl⟩

end Texts

end CheckGate.Utf8
