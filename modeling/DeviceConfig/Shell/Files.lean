/-
Files, as far as the shell needs them.

The shell works with any state that answers for files.  A refusal is told in the words of the
system that keeps them.
-/
namespace DeviceConfig

/-- Why something cannot be done with a file. -/
inductive FileError where
  | notFound
  | denied
  | alreadyExists
  | notADirectory
  | isADirectory
  | nameTooLong
  /-- The name holds a NUL character. -/
  | nulInName
  /-- The content is not UTF-8. -/
  | notText
  | other (text : String)
  deriving DecidableEq, Repr

/-- The text of a refusal. -/
def FileError.message : FileError → String
  | notFound => "No such file or directory (os error 2)"
  | denied => "Permission denied (os error 13)"
  | alreadyExists => "File exists (os error 17)"
  | notADirectory => "Not a directory (os error 20)"
  | isADirectory => "Is a directory (os error 21)"
  | nameTooLong => "File name too long (os error 36)"
  | nulInName => "file name contained an unexpected NUL byte"
  | notText => "stream did not contain valid UTF-8"
  | other text => text

/-- Who may do what with a file, as nine bits. -/
abbrev Mode := Nat

namespace Mode

/-- A file that everyone may read and write. -/
def shared : Mode := 0o666

/-- A file for its owner alone. -/
def privateFile : Mode := 0o600

/-- A directory for its owner alone. -/
def privateDirectory : Mode := 0o700

end Mode

/-- A state that answers for files. -/
class FileStore (F : Type) where
  /-- There is a file or a directory. -/
  present : (path : String) → F → Bool × F
  /-- The text of a file. -/
  read : (path : String) → F → Except FileError String × F
  /-- Makes a directory, and those above it, unless it is there. -/
  makeDirectory : (path : String) → F → Except FileError Unit × F
  /-- Changes who may do what with a file or a directory. -/
  setMode : (path : String) → Mode → F → Except FileError Unit × F
  /-- Replaces the text of a file.  A file that is not there is made with a mode. -/
  write : (path : String) → Mode → (text : String) → F → Except FileError Unit × F

/-- A name in a directory. -/
def joinPath (directory name : String) : String :=
  if directory.isEmpty || directory.endsWith "/" then directory ++ name
  else directory ++ "/" ++ name

end DeviceConfig
