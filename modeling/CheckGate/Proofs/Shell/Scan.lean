import CheckGate.Proofs.Delimiter
import CheckGate.Proofs.Shell.Quote
import CheckGate.Shell

/-!
# What stands unquoted in a shell text

A joined text keeps every special character of its words within quotations, save for single quotes,
which stand escaped between two of them. What stands outside are the marks of the quotations, the
blanks between words, and characters without special meaning. Each word ends outside quotations, so
the same is true of the whole text, and the first active special character after a joined text
shows where the text ends.
-/

namespace CheckGate.Shell.Region

@[simp]
theorem after_nil (region : Region) : region.after [] = region := rfl

@[simp]
theorem after_cons (region : Region) (character : Char) (text : List Char) :
    region.after (character :: text) = (region.next character).after text := rfl

theorem after_append (region : Region) (first second : List Char) :
    region.after (first ++ second) = (region.after first).after second := by
  simp only [after, List.foldl_append]

@[simp]
theorem scan_nil (region : Region) : region.scan [] = [] := rfl

@[simp]
theorem scan_cons (region : Region) (character : Char) (text : List Char) :
    region.scan (character :: text) =
      (region, character) :: (region.next character).scan text := rfl

theorem scan_append (region : Region) (first second : List Char) :
    region.scan (first ++ second) = region.scan first ++ (region.after first).scan second := by
  induction first generalizing region with
  | nil => rfl
  | cons character first ih => simp [ih]

/--
A region can hold a character of the quotation of a word: outside stand only the marks of
quotations and characters without special meaning, and only single quotes are escaped.
-/
def Admits : Region → Char → Prop
  | .outside, character =>
      character = quoteMark ∨ character = escapeMark ∨ isSpecial character = false
  | .escaped, character => character = quoteMark
  | .literal, _ => True

/-- A text leads from one region to another, through regions that admit its characters. -/
structure Leads (source : Region) (text : List Char) (target : Region) : Prop where
  /-- The text ends in the region that it leads to. -/
  after_eq : source.after text = target
  /-- Every character of the text is admitted where it stands. -/
  admits : ∀ place ∈ source.scan text, place.1.Admits place.2

namespace Leads

variable {source middle target : Region} {character : Char} {first second text : List Char}

theorem nil (region : Region) : region.Leads [] region where
  after_eq := rfl
  admits := by simp

theorem cons (admitted : source.Admits character)
    (rest : (source.next character).Leads text target) :
    source.Leads (character :: text) target where
  after_eq := rest.after_eq
  admits := by
    intro place placeMem
    rcases List.mem_cons.mp placeMem with rfl | inRest
    · exact admitted
    · exact rest.admits place inRest

theorem append (before : source.Leads first middle) (rest : middle.Leads second target) :
    source.Leads (first ++ second) target where
  after_eq := by rw [after_append, before.after_eq, rest.after_eq]
  admits := by
    intro place placeMem
    rw [scan_append, before.after_eq, List.mem_append] at placeMem
    rcases placeMem with inFirst | inRest
    · exact before.admits place inFirst
    · exact rest.admits place inRest

theorem plain (allPlain : ∀ character ∈ text, isSpecial character = false) :
    outside.Leads text outside := by
  induction text with
  | nil => exact nil outside
  | cons character text ih =>
      have characterPlain := allPlain character List.mem_cons_self
      have staysOutside : outside.next character = outside := by
        simp only [next, ne_quoteMark_of_not_special characterPlain,
          ne_escapeMark_of_not_special characterPlain, if_false]
      refine cons (Or.inr (Or.inr characterPlain)) ?_
      rw [staysOutside]
      apply ih
      intro later laterMem
      exact allPlain later (List.mem_cons_of_mem character laterMem)

theorem quoteCharacter (character : Char) :
    literal.Leads (quoteCharacter character) literal := by
  by_cases isQuoteMark : character = quoteMark
  · subst isQuoteMark
    rw [quoteCharacter_quoteMark]
    refine cons trivial ?_
    refine cons (Or.inr (Or.inl rfl)) ?_
    refine cons rfl ?_
    refine cons (Or.inl rfl) ?_
    exact nil literal
  · have staysLiteral : literal.next character = literal := by
      simp only [next, isQuoteMark, if_false]
    rw [quoteCharacter_of_ne isQuoteMark]
    refine cons trivial ?_
    rw [staysLiteral]
    exact nil literal

theorem quotation (text : List Char) :
    literal.Leads (text.flatMap Shell.quoteCharacter) literal := by
  induction text with
  | nil => exact nil literal
  | cons character text ih =>
      rw [List.flatMap_cons]
      exact (quoteCharacter character).append ih

theorem quote (word : List Char) : outside.Leads (quote word) outside := by
  by_cases needed : needsQuotation word = true
  · rw [quote_of_needsQuotation needed]
    have closing : literal.Leads [quoteMark] outside := cons trivial (nil outside)
    exact cons (Or.inl rfl) ((quotation word).append closing)
  · rcases quote_of_not_needsQuotation needed with ⟨unchanged, _, allPlain⟩
    rw [unchanged]
    exact plain allPlain

end Leads

theorem after_join (words : List (List Char)) : outside.after (join words) = outside := by
  induction words with
  | nil => rfl
  | cons word words ih =>
      cases words with
      | nil => rw [join_singleton, (Leads.quote word).after_eq]
      | cons next words =>
          rw [join_cons_cons, after_append, (Leads.quote word).after_eq, after_cons]
          exact ih

/-- In a joined text, all that is active is admitted there or separates two words. -/
theorem admits_or_blank_of_mem_scan_join {words : List (List Char)} {place : Region × Char}
    (placeMem : place ∈ outside.scan (join words)) :
    place.1.Admits place.2 ∨ place = (outside, ' ') := by
  induction words with
  | nil => cases placeMem
  | cons word words ih =>
      have wordLeads := Leads.quote word
      cases words with
      | nil =>
          rw [join_singleton] at placeMem
          exact Or.inl (wordLeads.admits place placeMem)
      | cons next words =>
          rw [join_cons_cons, scan_append, wordLeads.after_eq, List.mem_append, scan_cons,
            List.mem_cons] at placeMem
          rcases placeMem with inWord | isBlank | inRest
          · exact Or.inl (wordLeads.admits place inWord)
          · exact Or.inr isBlank
          · exact ih inRest

/-- A special character other than a blank and the marks of quotations is always literal. -/
theorem eq_literal_of_mem_scan_join {stop : Char} (special : isSpecial stop = true)
    (notQuoteMark : stop ≠ quoteMark) (notEscapeMark : stop ≠ escapeMark) (notBlank : stop ≠ ' ')
    {words : List (List Char)} {region : Region}
    (placeMem : (region, stop) ∈ outside.scan (join words)) : region = literal := by
  rcases admits_or_blank_of_mem_scan_join placeMem with admitted | isBlank
  · cases region with
    | outside =>
        rcases admitted with isQuoteMark | isEscapeMark | plain
        · exact absurd isQuoteMark notQuoteMark
        · exact absurd isEscapeMark notEscapeMark
        · exact absurd rfl (ne_of_not_special plain special)
    | escaped => exact absurd admitted notQuoteMark
    | literal => rfl
  · exact absurd (Prod.mk.inj isBlank).2 notBlank

theorem not_mem_scan_join {stop : Char} (special : isSpecial stop = true)
    (notQuoteMark : stop ≠ quoteMark) (notEscapeMark : stop ≠ escapeMark) (notBlank : stop ≠ ' ')
    (words : List (List Char)) : (outside, stop) ∉ outside.scan (join words) := by
  intro active
  cases eq_literal_of_mem_scan_join special notQuoteMark notEscapeMark notBlank active

/-- A text that goes on with a delimiter after a part that ends outside has it active there. -/
theorem active_of_longer {stop next : Char} {shorter extra rest laterRest : List Char}
    (shorterEnds : outside.after shorter = outside)
    (beyond : stop :: rest = next :: extra ++ stop :: laterRest) :
    (outside, stop) ∈ outside.scan (shorter ++ next :: extra) := by
  have nextEq : stop = next := by simpa using congrArg List.head? beyond
  rw [scan_append, shorterEnds, scan_cons, nextEq]
  exact List.mem_append_right _ List.mem_cons_self

theorem cut_active {stop : Char} {left right leftRest rightRest : List Char}
    (leftEnds : outside.after left = outside) (rightEnds : outside.after right = outside)
    (leftFree : (outside, stop) ∉ outside.scan left)
    (rightFree : (outside, stop) ∉ outside.scan right)
    (same : left ++ stop :: leftRest = right ++ stop :: rightRest) :
    left = right ∧ leftRest = rightRest := by
  have cut := Delimiter.cut_unique same
    (fun next extra longer rest => by
      rw [longer] at leftFree
      exact leftFree (active_of_longer rightEnds rest))
    (fun next extra longer rest => by
      rw [longer] at rightFree
      exact rightFree (active_of_longer leftEnds rest))
  exact ⟨cut.1, (List.cons.inj cut.2).2⟩

end CheckGate.Shell.Region
