import CheckGate.Command
import CheckGate.Proofs.Shell.Quote
import CheckGate.Shell
import Mathlib.Logic.Function.Basic

/-!
# Quoted words are read back

Splitting reads a joined text back into exactly the words that were joined. A word that stands for
itself contains no character that the reader of a word takes for anything but itself. In a quoted
word the reader is between single quotes at every place where a character of the word begins, and
a single quote of the word takes it out, adds the quote and takes it in again. After each word the
reader is in a word, so that the blank that follows ends it.
-/

namespace CheckGate.Shell

namespace Splitter

@[simp]
theorem read_nil (splitter : Splitter) : splitter.read [] = splitter := rfl

@[simp]
theorem read_cons (splitter : Splitter) (character : Char) (text : List Char) :
    splitter.read (character :: text) = (splitter.step character).read text := rfl

theorem read_append (splitter : Splitter) (first second : List Char) :
    splitter.read (first ++ second) = (splitter.read first).read second := by
  simp only [read, List.foldl_append]

theorem not_separator_of_not_special {character : Char} (plain : isSpecial character = false) :
    separators.contains character = false := by
  simp only [separators, List.contains_eq_mem, List.mem_cons, List.not_mem_nil, or_false,
    decide_eq_false_iff_not, not_or]
  exact ⟨ne_of_not_special plain rfl, ne_of_not_special plain rfl, ne_of_not_special plain rfl⟩

theorem readUnquoted_of_not_special (splitter : Splitter) {character : Char}
    (plain : isSpecial character = false) :
    splitter.readUnquoted character = splitter.add .inWord [character] := by
  have notDoubleQuote : character ≠ doubleQuoteMark := ne_of_not_special plain rfl
  simp only [readUnquoted, ne_quoteMark_of_not_special plain, notDoubleQuote,
    ne_escapeMark_of_not_special plain, if_false]

theorem step_inWord_of_not_special (word : List Char) (words : List (List Char))
    {character : Char} (plain : isSpecial character = false) :
    step ⟨.inWord, word, words⟩ character = ⟨.inWord, word ++ [character], words⟩ := by
  simp only [step, not_separator_of_not_special plain, Bool.false_eq_true, if_false]
  exact readUnquoted_of_not_special _ plain

/-- A character that is not special begins a word, and no comment. -/
theorem step_between_of_not_special (words : List (List Char)) {character : Char}
    (plain : isSpecial character = false) :
    step ⟨.between, [], words⟩ character = ⟨.inWord, [character], words⟩ := by
  have notComment : character ≠ commentMark := ne_of_not_special plain rfl
  simp only [step, not_separator_of_not_special plain, notComment, Bool.false_eq_true, if_false]
  exact readUnquoted_of_not_special _ plain

theorem read_plain (word : List Char) (words : List (List Char)) {text : List Char}
    (plain : ∀ character ∈ text, isSpecial character = false) :
    read ⟨.inWord, word, words⟩ text = ⟨.inWord, word ++ text, words⟩ := by
  induction text generalizing word with
  | nil => simp
  | cons character text ih =>
      rw [read_cons, step_inWord_of_not_special _ _ (plain character List.mem_cons_self), ih]
      · simp
      · intro later laterMem
        exact plain later (List.mem_cons_of_mem character laterMem)

theorem read_quoteCharacter (word : List Char) (words : List (List Char)) (character : Char) :
    read ⟨.quoted, word, words⟩ (quoteCharacter character) =
      ⟨.quoted, word ++ [character], words⟩ := by
  by_cases isQuoteMark : character = quoteMark
  · subst isQuoteMark
    rfl
  · rw [quoteCharacter_of_ne isQuoteMark]
    simp only [read_cons, read_nil, step, isQuoteMark, if_false]
    rfl

theorem read_quotation (word : List Char) (words : List (List Char)) (text : List Char) :
    read ⟨.quoted, word, words⟩ (text.flatMap quoteCharacter) =
      ⟨.quoted, word ++ text, words⟩ := by
  induction text generalizing word with
  | nil => simp
  | cons character text ih =>
      rw [List.flatMap_cons, read_append, read_quoteCharacter, ih]
      simp

/-- Where a word can begin, the quotation of a word is read as that word. -/
theorem read_quote (words : List (List Char)) (word : List Char) :
    read ⟨.between, [], words⟩ (quote word) = ⟨.inWord, word, words⟩ := by
  by_cases needed : needsQuotation word = true
  · have opened : step ⟨.between, [], words⟩ quoteMark = ⟨.quoted, [], words⟩ := rfl
    have closed : step ⟨.quoted, word, words⟩ quoteMark = ⟨.inWord, word, words⟩ := rfl
    rw [quote_of_needsQuotation needed, read_cons, opened, read_append, read_quotation]
    simpa using closed
  · rcases quote_of_not_needsQuotation needed with ⟨unchanged, nonempty, plain⟩
    rw [unchanged]
    cases word with
    | nil => exact absurd rfl nonempty
    | cons character word =>
        rw [read_cons, step_between_of_not_special _ (plain character List.mem_cons_self),
          read_plain]
        · rfl
        · intro later laterMem
          exact plain later (List.mem_cons_of_mem character laterMem)

/-- A joined text is read as its words, of which the last one is still open at the end. -/
theorem finish_read_join (words : List (List Char)) (word : List Char)
    (later : List (List Char)) :
    (read ⟨.between, [], words⟩ (join (word :: later))).finish =
      some (words ++ word :: later) := by
  induction later generalizing words word with
  | nil =>
      rw [join_singleton, read_quote]
      rfl
  | cons next later ih =>
      have separated :
          step ⟨.inWord, word, words⟩ ' ' = ⟨.between, [], words ++ [word]⟩ := rfl
      rw [join_cons_cons, read_append, read_quote, read_cons, separated, ih]
      simp

end Splitter

/-- Splitting is a left inverse of joining, but for the text of no words at all. -/
theorem split_join (word : List Char) (words : List (List Char)) :
    split (join (word :: words)) = some (word :: words) :=
  Splitter.finish_read_join [] word words

end CheckGate.Shell

namespace CheckGate.Command

theorem words?_shellLine (command : Command) :
    Shell.words? command.shellLine = some command.words := by
  simp only [Shell.words?, shellLine, String.toList_ofList, words, List.map_cons,
    Shell.split_join, Option.map_some, List.map_map]
  simp

theorem eq_of_words_eq {first second : Command} (sameWords : first.words = second.words) :
    first = second := by
  cases first
  cases second
  simpa [words] using sameWords

theorem eq_of_shellLine_eq {first second : Command}
    (sameLine : first.shellLine = second.shellLine) : first = second := by
  have sameWords : some first.words = some second.words := by
    rw [← words?_shellLine, ← words?_shellLine, sameLine]
  exact eq_of_words_eq (Option.some.inj sameWords)

/--
The shell text of every program with every list of arguments is well-formed and is split into
exactly these words, so that different commands have different shell texts.
-/
theorem shellLine_splits_into_its_words :
    (∀ (program : String) (arguments : List String),
      Shell.words? (Command.shellLine ⟨program, arguments⟩) = some (program :: arguments)) ∧
    Function.Injective Command.shellLine := by
  constructor
  · intro program arguments
    exact words?_shellLine ⟨program, arguments⟩
  · intro first second sameLine
    exact eq_of_shellLine_eq sameLine

end CheckGate.Command
