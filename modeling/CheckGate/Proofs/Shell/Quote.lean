import CheckGate.Command
import Mathlib.Tactic.ByContra

/-!
# The two forms of a quoted word

A word is either left as it is, and then it has characters and none of them is special, or it stands
between single quotes. Every reader of shell text is followed through these two cases, and through
a joined text word by word.
-/

namespace CheckGate.Shell

theorem ne_of_not_special {character mark : Char} (plain : isSpecial character = false)
    (special : isSpecial mark = true) : character ≠ mark := by
  rintro rfl
  rw [plain] at special
  cases special

theorem ne_quoteMark_of_not_special {character : Char} (plain : isSpecial character = false) :
    character ≠ quoteMark :=
  ne_of_not_special plain rfl

theorem ne_escapeMark_of_not_special {character : Char} (plain : isSpecial character = false) :
    character ≠ escapeMark :=
  ne_of_not_special plain rfl

theorem quote_of_needsQuotation {word : List Char} (needed : needsQuotation word = true) :
    quote word = quoteMark :: (word.flatMap quoteCharacter ++ [quoteMark]) :=
  if_pos needed

/-- A word that stands for itself has characters, and none of them is special. -/
theorem quote_of_not_needsQuotation {word : List Char} (plain : ¬needsQuotation word = true) :
    quote word = word ∧ word ≠ [] ∧ ∀ character ∈ word, isSpecial character = false := by
  refine ⟨if_neg plain, ?_, ?_⟩
  · rintro rfl
    exact plain rfl
  · intro character characterMem
    by_contra special
    apply plain
    simp only [needsQuotation, Bool.or_eq_true, List.any_eq_true]
    exact Or.inr ⟨character, characterMem, by simpa using special⟩

theorem quoteCharacter_quoteMark :
    quoteCharacter quoteMark = [quoteMark, escapeMark, quoteMark, quoteMark] := rfl

theorem quoteCharacter_of_ne {character : Char} (other : character ≠ quoteMark) :
    quoteCharacter character = [character] :=
  if_neg other

@[simp]
theorem join_singleton (word : List Char) : join [word] = quote word := by
  simp [join]

theorem join_cons_cons (first second : List Char) (words : List (List Char)) :
    join (first :: second :: words) = quote first ++ ' ' :: join (second :: words) := by
  simp [join, List.intercalate_cons_cons]

section Count

variable {counted : Char}

/-- Quotation adds nothing to a word but marks, and takes nothing away from it. -/
theorem count_quote (notQuoteMark : counted ≠ quoteMark) (notEscapeMark : counted ≠ escapeMark)
    (word : List Char) : (quote word).count counted = word.count counted := by
  have within : (word.flatMap quoteCharacter).count counted = word.count counted := by
    induction word with
    | nil => rfl
    | cons character word ih =>
        rw [List.flatMap_cons, List.count_append, ih, List.count_cons, Nat.add_comm]
        by_cases isQuoteMark : character = quoteMark
        · subst isQuoteMark
          simp [quoteCharacter_quoteMark, notQuoteMark.symm, notEscapeMark.symm]
        · rw [quoteCharacter_of_ne isQuoteMark, List.count_singleton]
  by_cases needed : needsQuotation word = true
  · rw [quote_of_needsQuotation needed]
    simp [within, notQuoteMark.symm]
  · rw [(quote_of_not_needsQuotation needed).1]

/-- A joined text has the characters of its words, the marks and the blanks apart. -/
theorem count_join (notQuoteMark : counted ≠ quoteMark) (notEscapeMark : counted ≠ escapeMark)
    (notBlank : counted ≠ ' ') (words : List (List Char)) :
    (join words).count counted = words.flatten.count counted := by
  induction words with
  | nil => rfl
  | cons word words ih =>
      rw [List.flatten_cons, List.count_append, ← ih]
      cases words with
      | nil => simp [count_quote notQuoteMark notEscapeMark, join]
      | cons next words =>
          rw [join_cons_cons, List.count_append, count_quote notQuoteMark notEscapeMark,
            List.count_cons_of_ne notBlank.symm]

end Count

end CheckGate.Shell
