/-!
# Commands and their shell text

A command names the program to run and the arguments to run it with. It is never handed to a
shell; its shell text exists for the reader of a report alone, who can paste it into one.

Quoting a word makes the text mean exactly that word: a word without special characters stands for
itself, and any other word, the empty one included, goes between single quotes, where a shell reads
every character literally. A single quote cannot stand between single quotes, so each one closes the
quotation, stands escaped by a backslash, and opens the quotation again. The quotation of a word is
thus the concatenation of the quotations of its characters, which lists of characters show best.
-/

namespace CheckGate.Shell

/-- The single quote, between two of which a shell reads every character literally. -/
def quoteMark : Char := '\x27'

/-- The character that makes the next one literal outside quotations. -/
def escapeMark : Char := '\x5c'

/--
The characters that a shell may give a meaning of their own when they stand unquoted: those that
separate words and commands, redirect, quote, expand, match file names, start a comment, or assign.
-/
def specialCharacters : List Char :=
  "\n\t |&;<>()$`\\\"'*?[#~=%".toList

/-- Whether a character takes its word into quotation. -/
def isSpecial (character : Char) : Bool :=
  specialCharacters.contains character

/-- A character as it stands within a quotation. -/
def quoteCharacter (character : Char) : List Char :=
  if character = quoteMark then
    [quoteMark, escapeMark, quoteMark, quoteMark]
  else
    [character]

/-- Whether a word has to be quoted to keep its meaning. -/
def needsQuotation (word : List Char) : Bool :=
  word.isEmpty || word.any isSpecial

/-- The shell text that means exactly the given word. -/
def quote (word : List Char) : List Char :=
  if needsQuotation word then
    quoteMark :: (word.flatMap quoteCharacter ++ [quoteMark])
  else
    word

/-- The shell text that means exactly the given words, in order. -/
def join (words : List (List Char)) : List Char :=
  [' '].intercalate (words.map quote)

end CheckGate.Shell

namespace CheckGate

/-- A program together with its ordered arguments. -/
structure Command where
  /-- The program, either a bare name to be looked up or a path. -/
  program : String
  /-- The arguments, without the program itself. -/
  arguments : List String
  deriving DecidableEq

namespace Command

/-- The program followed by its arguments. -/
def words (command : Command) : List String :=
  command.program :: command.arguments

/-- The shell text of a command, quoted so that splitting it gives back `words`. -/
def shellLine (command : Command) : String :=
  String.ofList (Shell.join (command.words.map String.toList))

end Command

end CheckGate
