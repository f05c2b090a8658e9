import CheckGate.Host.Console
import Mathlib.Data.List.Basic

/-!
# What a command can start

A walk along a path never leaves the files of the directory: every step leads to a directory or to a
file that was listed. So a command can start something exactly if none of its words contains the
zero character and its program leads to a listed file that is a program. Every other command has an
error instead.
-/

namespace CheckGate.Host

/-- A place is a directory, or a file that the directory of programs lists. -/
def Place.IsListed (directory : Directory) : Place → Prop
  | .directory _ => True
  | .file listed => listed ∈ directory.files

namespace Directory

variable {directory : Directory}

theorem isListed_of_find? {steps : List String} {place : Place}
    (found : directory.find? steps = some place) : place.IsListed directory := by
  unfold find? at found
  cases last : directory.files.findRev? fun file => file.steps == steps with
  | none =>
      simp only [last] at found
      split at found
      · cases found
        trivial
      · cases found
  | some file =>
      have fileMem : file ∈ directory.files := by
        rw [List.findRev?_eq_find?_reverse] at last
        exact List.mem_reverse.mp (List.mem_of_find?_eq_some last)
      simp only [last] at found
      split at found
      · cases found
        trivial
      · cases found
        exact fileMem

theorem isListed_of_enter {location : Location} {name : String} {place : Place}
    (entered : directory.enter location name = .ok place) : place.IsListed directory := by
  unfold enter at entered
  split at entered
  · cases entered
  · cases location with
    | outside => cases entered
    | within steps =>
        dsimp only at entered
        cases found : directory.find? (steps ++ [name]) with
        | none =>
            rw [found] at entered
            cases entered
        | some target =>
            rw [found] at entered
            cases entered
            exact isListed_of_find? found

theorem isListed_of_step {start place : Place} {component : String}
    (stepped : directory.step start component = .ok place) : place.IsListed directory := by
  cases start with
  | file found => cases stepped
  | directory location =>
      unfold step at stepped
      dsimp only at stepped
      split at stepped
      · cases stepped
        trivial
      · split at stepped
        · cases stepped
          trivial
        · exact isListed_of_enter stepped

theorem isListed_of_foldlM_step {path : List String} {start place : Place}
    (startListed : start.IsListed directory)
    (walked : path.foldlM directory.step start = .ok place) : place.IsListed directory := by
  induction path generalizing start with
  | nil =>
      cases walked
      exact startListed
  | cons component path ih =>
      rw [List.foldlM_cons] at walked
      cases stepped : directory.step start component with
      | error error =>
          rw [stepped] at walked
          cases walked
      | ok next =>
          rw [stepped] at walked
          exact ih (isListed_of_step stepped) walked

theorem mem_files_of_locate {program : String} {file : File}
    (located : directory.locate program = .ok (.file file)) : file ∈ directory.files := by
  unfold locate at located
  split at located
  · cases located
  · split at located
    · cases located
    · have startListed : (Place.directory
          (if program.toList.head? = some '/' then .outside else .within [])).IsListed directory :=
        trivial
      exact isListed_of_foldlM_step startListed located

end Directory

theorem hasZeroCharacter_eq_true_iff {text : String} :
    hasZeroCharacter text = true ↔ '\x00' ∈ text.toList := by
  simp [hasZeroCharacter]

theorem Place.executable_eq_ok_iff {place : Place} {executable : Executable} :
    place.executable = .ok executable ↔
      ∃ file, place = .file file ∧ file.content = .program executable.behaviour ∧
        file.name = executable.file := by
  constructor
  · intro startable
    cases place with
    | directory location => cases startable
    | file file =>
        unfold Place.executable at startable
        dsimp only at startable
        cases content : file.content with
        | program behaviour =>
            rw [content] at startable
            cases startable
            exact ⟨file, rfl, content, rfl⟩
        | _ =>
            rw [content] at startable
            cases startable
  · rintro ⟨file, rfl, content, name⟩
    simp only [Place.executable, content, name]

namespace Directory

variable {directory : Directory} {command : Command}

/-- A zero character anywhere in a command is found before its program is looked for. -/
theorem executable_of_zeroCharacter
    (zero : ∃ word ∈ command.words, '\x00' ∈ word.toList) :
    directory.executable command = .error .zeroCharacter := by
  refine if_pos ?_
  simpa only [List.any_eq_true, hasZeroCharacter_eq_true_iff] using zero

/-- A command can start what its program leads to, if this is a program. -/
theorem executable_eq_ok_iff {executable : Executable} :
    directory.executable command = .ok executable ↔
      (∀ word ∈ command.words, '\x00' ∉ word.toList) ∧
        ∃ file, directory.locate command.program = .ok (.file file) ∧
          file.content = .program executable.behaviour ∧ file.name = executable.file := by
  by_cases zero : ∃ word ∈ command.words, '\x00' ∈ word.toList
  · rw [executable_of_zeroCharacter zero]
    rcases zero with ⟨word, wordMem, zeroMem⟩
    constructor
    · intro startable
      cases startable
    · rintro ⟨zeroFree, _⟩
      exact absurd zeroMem (zeroFree word wordMem)
  · have zeroFree : ∀ word ∈ command.words, '\x00' ∉ word.toList := by
      intro word wordMem zeroMem
      exact zero ⟨word, wordMem, zeroMem⟩
    have looked : directory.executable command =
        (directory.locate command.program).bind Place.executable := by
      refine if_neg ?_
      simpa only [List.any_eq_true, hasZeroCharacter_eq_true_iff] using zero
    rw [looked]
    cases directory.locate command.program with
    | error error =>
        constructor
        · intro startable
          cases startable
        · rintro ⟨_, file, located, _⟩
          cases located
    | ok place =>
        rw [Except.bind, Place.executable_eq_ok_iff]
        constructor
        · rintro ⟨file, rfl, content, name⟩
          exact ⟨zeroFree, file, rfl, content, name⟩
        · rintro ⟨_, file, located, content, name⟩
          exact ⟨file, Except.ok.inj located, content, name⟩

end Directory

end CheckGate.Host
