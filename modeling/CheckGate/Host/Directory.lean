import CheckGate.Host.Child

/-!
# The directory of programs

A host has a single directory of programs, which is at once where it works and the only place where
bare names are looked up. The files of the directory may lie in directories below it, which exist
because a file lies in them.

A program is found by walking along the components of its path, from the directory of programs or
from the root of the file system. Empty components and single dots stay in place and double dots go
up; all three need a directory to stand in. Nothing is known of the world outside the directory of
programs save that there are directories: no file is ever found there. A bare name is a path of one
component, since names are looked up in the directory alone that paths start from.

A program that cannot be started is reported with the cause in the words of the operating system,
which numbers its causes. One cause is found before the system is asked: the system takes texts up
to the first zero character, so a command that contains one cannot be passed on at all.
-/

namespace CheckGate.Host

/-- Why a program cannot be started. -/
inductive StartError where
  /-- The program or an argument contains the zero character. -/
  | zeroCharacter
  /-- There is no such file, or its interpreter does not exist. -/
  | notFound
  /-- The file is of no kind that the system can run. -/
  | unknownFormat
  /-- It is a directory, or a file without permission to be run. -/
  | permissionDenied
  /-- The path goes on below something that is no directory. -/
  | notDirectory
  /-- The path or one of its components has too many bytes. -/
  | nameTooLong
  deriving DecidableEq

namespace StartError

/-- The cause in words. -/
def message : StartError → String
  | .zeroCharacter => "nul byte found in provided data"
  | .notFound => "No such file or directory (os error 2)"
  | .unknownFormat => "Exec format error (os error 8)"
  | .permissionDenied => "Permission denied (os error 13)"
  | .notDirectory => "Not a directory (os error 20)"
  | .nameTooLong => "File name too long (os error 36)"

/-- The reason to be reported for a given program. -/
def reason (error : StartError) (program : String) : String :=
  "failed to invoke `" ++ program ++ "`: " ++ error.message

end StartError

/-- What a file of the directory is. -/
inductive Content where
  /-- A program, whose behaviour may depend on its arguments. -/
  | program (behaviour : List String → Behaviour)
  | notExecutable
  /-- A script for an interpreter that does not exist. -/
  | missingInterpreter
  /-- A text that is no script. -/
  | plainText
  | directory

/-- A file of the directory. -/
structure File where
  /-- The path of the file from the directory, as it was listed. -/
  name : String
  content : Content

/-- The components of a path, empty ones included. -/
def components (path : String) : List String :=
  (path.toList.splitOn '/').map String.ofList

/-- Whether a component of a path stays in place. -/
def staysInPlace (component : String) : Bool :=
  component = "" || component = "."

/-- The path of a file as the components that lead down to it. -/
def File.steps (file : File) : List String :=
  (components file.name).filter fun component => !staysInPlace component

/-- The directory that holds the programs of a host. -/
structure Directory where
  /-- The files, of which a later one replaces an earlier one of the same path. -/
  files : List File

/-- Where a directory lies, as seen from the directory of programs. -/
inductive Location where
  /-- The directory of programs, or one below it. -/
  | within (steps : List String)
  /-- Somewhere above or beside it. -/
  | outside
  deriving DecidableEq

/-- What a path may lead to. -/
inductive Place where
  | directory (location : Location)
  | file (file : File)

namespace Location

/-- The directory above. -/
def parent : Location → Location
  | .within [] => .outside
  | .within steps => .within steps.dropLast
  | .outside => .outside

end Location

/-- What lies at the end of the given steps down from the directory. -/
def Directory.find? (directory : Directory) (steps : List String) : Option Place :=
  match directory.files.findRev? fun file => file.steps == steps with
  | some file =>
      match file.content with
      | .directory => some (.directory (.within steps))
      | _ => some (.file file)
  | none =>
      if directory.files.any fun file => steps.isPrefixOf file.steps then
        some (.directory (.within steps))
      else
        none

/-- How many bytes a component of a path may have. -/
def maximalNameSize : Nat := 255

/-- How many bytes a path may have. -/
def maximalPathSize : Nat := 4095

namespace Directory

/-- Goes from a directory to what a name means there. -/
def enter (directory : Directory) (location : Location) (name : String) :
    Except StartError Place :=
  if maximalNameSize < name.utf8ByteSize then
    .error .nameTooLong
  else
    match location with
    | .outside => .error .notFound
    | .within steps =>
        match directory.find? (steps ++ [name]) with
        | some place => .ok place
        | none => .error .notFound

/-- Goes on from a place along one component of a path. -/
def step (directory : Directory) : Place → String → Except StartError Place
  | .file _, _ => .error .notDirectory
  | .directory location, component =>
      if staysInPlace component then
        .ok (.directory location)
      else if component = ".." then
        .ok (.directory location.parent)
      else
        directory.enter location component

/-- The place that a path leads to. -/
def walk (directory : Directory) (path : String) : Except StartError Place :=
  let start : Location := if path.toList.head? = some '/' then .outside else .within []
  (components path).foldlM directory.step (.directory start)

/-- The place that a program is to be started from: at its path, or under its bare name. -/
def locate (directory : Directory) (program : String) : Except StartError Place :=
  if program = "" then
    .error .notFound
  else if maximalPathSize < program.utf8ByteSize then
    .error .nameTooLong
  else
    directory.walk program

end Directory

end CheckGate.Host
