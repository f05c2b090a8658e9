import CheckGate.Command
import CheckGate.Proofs.Shell.Scan

/-!
# What is active in the shell text of a command

A character of a shell text can separate, redirect, expand or start a comment only where it stands
outside quotations. In the shell text of a command, the characters that stand there are the marks of
the quotations, escaped single quotes, characters without special meaning, and the blanks between
the words. So whatever the program and its arguments are, none of their text is active.
-/

namespace CheckGate.Shell.Region

theorem getElem?_scan (region : Region) (text : List Char) (index : Nat) :
    (region.scan text)[index]? =
      text[index]?.map fun character => (region.after (text.take index), character) := by
  induction text generalizing region index with
  | nil => simp
  | cons character text ih =>
      cases index with
      | zero => rfl
      | succ index => simpa using ih (region.next character) index

theorem mem_scan_between (region : Region) (before rest : List Char) (character : Char) :
    (region.after before, character) ∈ region.scan (before ++ character :: rest) := by
  rw [scan_append, scan_cons]
  exact List.mem_append_right _ List.mem_cons_self

/-- In a text that ends outside, there is a character after every active escape mark. -/
theorem escaped_of_escapeMark {text : List Char} {index : Nat}
    (ends : outside.after text = outside)
    (mark : (outside.scan text)[index]? = some (outside, escapeMark)) :
    ∃ character, text[index + 1]? = some character ∧
      (escaped, character) ∈ outside.scan text := by
  rw [getElem?_scan, Option.map_eq_some_iff] at mark
  rcases mark with ⟨character, found, place⟩
  obtain ⟨afterFront, rfl⟩ := Prod.mk.inj place
  have afterMark : outside.after (text.take (index + 1)) = escaped := by
    rw [List.take_add_one, found, after_append, afterFront]
    rfl
  cases next : text[index + 1]? with
  | none =>
      have whole : text.take (index + 1) = text :=
        List.take_of_length_le (List.getElem?_eq_none_iff.mp next)
      rw [whole, ends] at afterMark
      cases afterMark
  | some character =>
      refine ⟨character, rfl, ?_⟩
      apply List.mem_of_getElem? (i := index + 1)
      rw [getElem?_scan, next, afterMark]
      rfl

/-- In a joined text, every escape mark outside quotations stands right before a single quote. -/
theorem quoteMark_after_escapeMark {words : List (List Char)} {region : Region} {index : Nat}
    (notLiteral : region ≠ literal)
    (mark : (outside.scan (join words))[index]? = some (region, escapeMark)) :
    (join words)[index + 1]? = some quoteMark := by
  have isOutside : region = outside := by
    rcases admits_or_blank_of_mem_scan_join (List.mem_of_getElem? mark) with admitted | isBlank
    · cases region with
      | outside => rfl
      | escaped => cases admitted
      | literal => exact absurd rfl notLiteral
    · exact (Prod.mk.inj isBlank).1
  subst isOutside
  rcases escaped_of_escapeMark (after_join words) mark with ⟨character, next, isEscaped⟩
  rcases admits_or_blank_of_mem_scan_join isEscaped with admitted | isBlank
  · rw [next]
    exact congrArg some admitted
  · cases isBlank

/-- Whether a character is a blank that stands outside quotations. -/
def isActiveBlank (place : Region × Char) : Bool :=
  decide (place.1 ≠ literal ∧ place.2 = ' ')

theorem isActiveBlank_of_admits {place : Region × Char} (admitted : place.1.Admits place.2) :
    isActiveBlank place = false := by
  rcases place with ⟨region, character⟩
  simp only [isActiveBlank, decide_eq_false_iff_not, not_and]
  rintro notLiteral rfl
  cases region with
  | outside =>
      rcases admitted with isQuoteMark | isEscapeMark | plain
      · cases isQuoteMark
      · cases isEscapeMark
      · cases plain
  | escaped => cases admitted
  | literal => exact notLiteral rfl

theorem after_eq_literal_of_quote {word before rest : List Char}
    (cut : quote word = before ++ ' ' :: rest) : outside.after before = literal := by
  have placeMem := mem_scan_between outside before rest ' '
  rw [← cut] at placeMem
  have inactive := isActiveBlank_of_admits ((Leads.quote word).admits _ placeMem)
  simpa [isActiveBlank] using inactive

/-- There is one active blank between any two neighbouring words, and there are no others. -/
theorem countP_isActiveBlank_join (word : List Char) (words : List (List Char)) :
    (outside.scan (join (word :: words))).countP isActiveBlank = words.length := by
  have noneInWord (word : List Char) :
      (outside.scan (quote word)).countP isActiveBlank = 0 := by
    rw [List.countP_eq_zero]
    intro place placeMem
    rw [isActiveBlank_of_admits ((Leads.quote word).admits place placeMem)]
    exact Bool.false_ne_true
  induction words generalizing word with
  | nil => rw [join_singleton, noneInWord, List.length_nil]
  | cons next words ih =>
      have blankActive : isActiveBlank (outside, ' ') = true := rfl
      have staysOutside : outside.next ' ' = outside := rfl
      rw [join_cons_cons, scan_append, (Leads.quote word).after_eq, scan_cons, staysOutside,
        List.countP_append, noneInWord, List.countP_cons_of_pos blankActive, ih,
        List.length_cons]
      omega

theorem join_cons_of_ne_nil (word : List Char) {words : List (List Char)}
    (nonempty : words ≠ []) : join (word :: words) = quote word ++ ' ' :: join words := by
  cases words with
  | nil => exact absurd rfl nonempty
  | cons next words => exact join_cons_cons word next words

/-- An active blank in a joined text stands between the text of some words and that of the rest. -/
theorem joint_of_active_blank {words : List (List Char)} {before rest : List Char}
    (cut : join words = before ++ ' ' :: rest) (active : outside.after before ≠ literal) :
    ∃ count, 0 < count ∧ count < words.length ∧
      before = join (words.take count) ∧ rest = join (words.drop count) := by
  induction words generalizing before with
  | nil => simp [join] at cut
  | cons word words ih =>
      cases words with
      | nil =>
          rw [join_singleton] at cut
          exact absurd (after_eq_literal_of_quote cut) active
      | cons next words =>
          rw [join_cons_cons, List.append_eq_append_iff] at cut
          rcases cut with ⟨extra, longer, joint⟩ | ⟨extra, longer, joint⟩
          · cases extra with
            | nil =>
                refine ⟨1, by simp, by simp, ?_, ?_⟩
                · simpa using longer
                · simpa using joint.symm
            | cons blank extra =>
                obtain ⟨rfl, later⟩ := List.cons.inj joint
                have laterActive : outside.after extra ≠ literal := by
                  rw [longer, after_append, (Leads.quote word).after_eq] at active
                  exact active
                rcases ih later laterActive with ⟨count, positive, inRange, extraEq, restEq⟩
                refine ⟨count + 1, by simp, by simpa using inRange, ?_, ?_⟩
                · have someTaken : (next :: words).take count ≠ [] := by
                    simp [Nat.ne_of_gt positive]
                  rw [List.take_succ_cons, join_cons_of_ne_nil word someTaken, ← extraEq]
                  exact longer
                · simpa using restEq
          · cases extra with
            | nil =>
                refine ⟨1, by simp, by simp, ?_, ?_⟩
                · simpa using longer.symm
                · simpa using joint
            | cons blank extra =>
                obtain ⟨rfl, _⟩ := List.cons.inj joint
                exact absurd (after_eq_literal_of_quote longer) active

end CheckGate.Shell.Region

namespace CheckGate.Command

open Shell

/-- Each of these characters is special, but neither a mark of quotations nor a blank. -/
theorem special_of_mem {character : Char}
    (characterMem : character ∈ "\n\t|&;<>()$`\"*?[#~=%".toList) :
    ((isSpecial character = true ∧ character ≠ quoteMark) ∧ character ≠ escapeMark) ∧
      character ≠ ' ' := by
  have all : ("\n\t|&;<>()$`\"*?[#~=%".toList.all fun character =>
      isSpecial character && character != quoteMark && character != escapeMark &&
        character != ' ') = true := by decide
  simpa only [Bool.and_eq_true, bne_iff_ne] using List.all_eq_true.mp all character characterMem

theorem toList_shellLine (command : Command) :
    command.shellLine.toList = join (command.words.map String.toList) := by
  rw [shellLine, String.toList_ofList]

/--
The shell text of a command ends outside quotations. Outside them stand an escape mark only before a
single quote, no character with a special meaning, and one blank between any two neighbouring words.
-/
theorem shellLine_keeps_its_words_inactive (command : Command) :
    let text := command.shellLine.toList
    let places := Region.outside.scan text
    Region.outside.after text = .outside ∧
    (∀ index region, places[index]? = some (region, escapeMark) → region ≠ .literal →
      text[index + 1]? = some quoteMark) ∧
    (∀ place ∈ places, place.1 ≠ .literal →
      place.2 ∉ "\n\t|&;<>()$`\"*?[#~=%".toList) ∧
    places.countP (fun place => decide (place.1 ≠ .literal ∧ place.2 = ' ')) =
      command.arguments.length ∧
    (∀ before rest, text = before ++ ' ' :: rest → Region.outside.after before ≠ .literal →
      ∃ count, 0 < count ∧ count < command.words.length ∧
        before = join ((command.words.take count).map String.toList) ∧
        rest = join ((command.words.drop count).map String.toList)) := by
  intro text places
  have textEq : text = join (command.words.map String.toList) := toList_shellLine command
  have placesEq : places = Region.outside.scan (join (command.words.map String.toList)) :=
    congrArg Region.outside.scan textEq
  refine ⟨?_, ?_, ?_, ?_, ?_⟩
  · rw [textEq]
    exact Region.after_join _
  · intro index region mark notLiteral
    rw [placesEq] at mark
    rw [textEq]
    exact Region.quoteMark_after_escapeMark notLiteral mark
  · rintro ⟨region, character⟩ placeMem notLiteral forbidden
    rcases special_of_mem forbidden with ⟨⟨⟨special, notQuoteMark⟩, notEscapeMark⟩, notBlank⟩
    rw [placesEq] at placeMem
    exact notLiteral (Region.eq_literal_of_mem_scan_join special notQuoteMark notEscapeMark
      notBlank placeMem)
  · rw [placesEq, ← command.arguments.length_map String.toList]
    exact Region.countP_isActiveBlank_join command.program.toList
      (command.arguments.map String.toList)
  · intro before rest cut active
    rw [textEq] at cut
    rcases Region.joint_of_active_blank cut active with
      ⟨count, positive, inRange, beforeEq, restEq⟩
    refine ⟨count, positive, by simpa using inRange, ?_, ?_⟩
    · rw [beforeEq, List.map_take]
    · rw [restEq, List.map_drop]

end CheckGate.Command
