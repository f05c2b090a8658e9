import CheckGate.Command

/-!
# Readers of shell text

Two readers take a shell text apart, character by character. The coarser one knows single quotes and
escape marks only: a single quote opens a literal region and the next one closes it, and outside
such regions an escape mark takes away the meaning of the character after it. Every other character
that stands outside is active.

The other reader splits a text into words, which are separated by runs of blanks, tabs and line
breaks. Between single quotes every character is literal up to the next single quote; between double
quotes an escape mark keeps its meaning before a few characters and is literal before all others;
outside quotations it makes the next character literal. A number sign at the beginning of a word
starts a comment, which goes on to the end of the line. A quotation that is never closed makes the
text malformed. This reader is a machine with one step for each character, so that what it does with
a long text is what it does with the parts, one after another.
-/

namespace CheckGate.Shell

/-- Where the next character of a text stands. -/
inductive Region where
  /-- Outside quotations, where it is active. -/
  | outside
  /-- Outside quotations, after an escape mark. -/
  | escaped
  | literal
  deriving DecidableEq

namespace Region

/-- Where the character after the given one stands. -/
def next : Region → Char → Region
  | .outside, character =>
      if character = quoteMark then
        .literal
      else if character = escapeMark then
        .escaped
      else
        .outside
  | .escaped, _ => .outside
  | .literal, character =>
      if character = quoteMark then
        .outside
      else
        .literal

/-- Where a character after the given text stands. -/
def after (region : Region) (text : List Char) : Region :=
  text.foldl next region

/-- The characters of a text, each with the region in which it stands. -/
def scan : Region → List Char → List (Region × Char)
  | _, [] => []
  | region, character :: text => (region, character) :: (region.next character).scan text

end Region

/-- The mark that opens and closes a quotation in which escape marks are not all literal. -/
def doubleQuoteMark : Char := '\x22'

/-- The mark that starts a comment where a word could begin. -/
def commentMark : Char := '#'

/-- The characters that separate words when they stand unquoted. -/
def separators : List Char := [' ', '\t', '\n']

/-- The characters that an escape mark makes literal between double quotes. -/
def escapable : List Char := ['$', '\x60', doubleQuoteMark, escapeMark]

/-- What the next character of a text is taken for. -/
inductive Mode where
  /-- It may begin a word. -/
  | between
  /-- It may go on with a word. -/
  | inWord
  /-- It is literal, after an escape mark outside quotations. -/
  | escaped
  | quoted
  | doubleQuoted
  /-- It follows an escape mark between double quotes. -/
  | doubleEscaped
  | comment
  deriving DecidableEq

/-- What has been read of a text. -/
structure Splitter where
  /-- What the next character is taken for. -/
  mode : Mode
  /-- The word that is being read, as far as it goes. -/
  word : List Char
  /-- The words before it. -/
  words : List (List Char)
  deriving DecidableEq

namespace Splitter

/-- The reader before the first character of a text. -/
def start : Splitter := { mode := .between, word := [], words := [] }

/-- Adds literal characters to the word, and goes on in the given mode. -/
def add (splitter : Splitter) (mode : Mode) (characters : List Char) : Splitter :=
  { splitter with mode, word := splitter.word ++ characters }

/-- Ends the word. -/
def endWord (splitter : Splitter) : Splitter :=
  { mode := .between, word := [], words := splitter.words ++ [splitter.word] }

/-- Reads a character that stands unquoted and separates nothing. -/
def readUnquoted (splitter : Splitter) (character : Char) : Splitter :=
  if character = quoteMark then
    { splitter with mode := .quoted }
  else if character = doubleQuoteMark then
    { splitter with mode := .doubleQuoted }
  else if character = escapeMark then
    { splitter with mode := .escaped }
  else
    splitter.add .inWord [character]

/-- Reads one character. -/
def step (splitter : Splitter) (character : Char) : Splitter :=
  match splitter.mode with
  | .between =>
      if separators.contains character then
        splitter
      else if character = commentMark then
        { splitter with mode := .comment }
      else
        splitter.readUnquoted character
  | .inWord =>
      if separators.contains character then
        splitter.endWord
      else
        splitter.readUnquoted character
  | .escaped => splitter.add .inWord [character]
  | .quoted =>
      if character = quoteMark then
        { splitter with mode := .inWord }
      else
        splitter.add .quoted [character]
  | .doubleQuoted =>
      if character = doubleQuoteMark then
        { splitter with mode := .inWord }
      else if character = escapeMark then
        { splitter with mode := .doubleEscaped }
      else
        splitter.add .doubleQuoted [character]
  | .doubleEscaped =>
      if character = '\n' then
        { splitter with mode := .doubleQuoted }
      else if escapable.contains character then
        splitter.add .doubleQuoted [character]
      else
        splitter.add .doubleQuoted [escapeMark, character]
  | .comment =>
      if character = '\n' then
        { splitter with mode := .between }
      else
        splitter

/-- Reads a text from its first to its last character. -/
def read (splitter : Splitter) (text : List Char) : Splitter :=
  text.foldl step splitter

/--
The words that were read when the text ends, unless a quotation is still open. An escape mark that
ends the text has nothing to escape and is literal.
-/
def finish (splitter : Splitter) : Option (List (List Char)) :=
  match splitter.mode with
  | .between => some splitter.words
  | .comment => some splitter.words
  | .inWord => some splitter.endWord.words
  | .escaped => some (splitter.add .inWord [escapeMark]).endWord.words
  | .quoted => none
  | .doubleQuoted => none
  | .doubleEscaped => none

end Splitter

/-- The words of a shell text, unless it is malformed. -/
def split (text : List Char) : Option (List (List Char)) :=
  (Splitter.start.read text).finish

/-- The words of a shell text as texts of their own, unless it is malformed. -/
def words? (text : String) : Option (List String) :=
  (split text.toList).map fun words => words.map String.ofList

end CheckGate.Shell
