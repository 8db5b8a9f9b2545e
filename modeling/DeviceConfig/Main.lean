/-
The shell at a terminal.
-/
import DeviceConfig.Shell.Replay
import DeviceConfig.Shell.Session

namespace DeviceConfig.Terminal

/-! ### Files -/

/-- The error of a system call, by its number, which some calls give as a negative one. -/
def ofNumber (number : UInt32) (text : String) : FileError :=
  match number.toInt32.toInt.natAbs with
  | 2 => .notFound
  | 13 => .denied
  | 17 => .alreadyExists
  | 20 => .notADirectory
  | 21 => .isADirectory
  | 36 => .nameTooLong
  | n => .other s!"{text} (os error {n})"

/-- The error of a system call. -/
def fileError : IO.Error → FileError
  | .alreadyExists _ n t | .otherError n t | .resourceBusy n t | .resourceVanished n t
  | .unsupportedOperation n t | .hardwareFault n t | .unsatisfiedConstraints n t
  | .illegalOperation n t | .protocolError n t | .timeExpired n t | .interrupted _ n t
  | .noFileOrDirectory _ n t | .invalidArgument _ n t | .permissionDenied _ n t
  | .resourceExhausted _ n t | .inappropriateType _ n t | .noSuchThing _ n t => ofNumber n t
  | .unexpectedEof => .other "unexpected end of file"
  | .userError text => .other text

/-- The rights of one class of users, from three bits. -/
def accessRight (bits : Nat) : IO.AccessRight :=
  ⟨bits.testBit 2, bits.testBit 1, bits.testBit 0⟩

def fileRight (mode : Mode) : IO.FileRight :=
  ⟨accessRight (mode >>> 6), accessRight (mode >>> 3), accessRight mode⟩

/-- There is something at a path. -/
def present (path : String) : IO Bool := do
  try
    discard (IO.FS.realPath path)
    return true
  catch _ => return false

/-- Replaces a file.  Only a new file gets the mode, and it does not get more than usual. -/
def replace (path : String) (mode : Mode) (text : String) : IO Unit := do
  let isNew := !(← present path)
  IO.FS.writeFile path text
  if isNew && mode != Mode.shared then IO.setAccessRights path (fileRight mode)

/-- The path of a question. -/
def path : FileQuestion → String
  | .present p | .read p | .makeDirectory p | .setMode p _ | .write p _ _ => p

def consult (q : FileQuestion) : IO FileAnswer := do
  if (path q).contains '\x00' then return .error .nulInName
  try
    match q with
    | .present p => return if ← present p then .ok "" else .error .notFound
    | .read p =>
      match String.fromUTF8? (← IO.FS.readBinFile p) with
      | some text => return .ok text
      | none => return .error .notText
    | .makeDirectory p => IO.FS.createDirAll p
    | .setMode p mode => IO.setAccessRights p (fileRight mode)
    | .write p mode text => replace p mode text
    return .ok ""
  catch e => return .error (fileError e)

/-! ### The dialogue -/

abbrev Talk := Dialogue Simulator Indifferent Replay

/-- The dialogue with answers about files. -/
def withAnswers (answers : List FileAnswer) (d : Talk) : Talk :=
  d.onConsole fun c => { c with files := { answers } }

/-- Finds out all answers that a function asks for. -/
partial def settle (f : List FileAnswer → Talk) (answers : List FileAnswer := []) : IO Talk := do
  let d := f answers
  match d.lifecycle.sink.files.open? with
  | none => return d
  | some q => settle f (answers ++ [← consult q])

/-- Shows what has been printed. -/
def display (d : Talk) : IO Talk := do
  let out ← IO.getStdout
  out.putStr d.lifecycle.sink.output
  out.flush
  return d.onConsole fun c => { c with printed := [] }

/-- The next line, or nothing at the end. -/
def nextLine : IO String := do
  try (← IO.getStdin).getLine
  catch e =>
    IO.eprintln s!"Read error: {e}"
    return ""

partial def converse (d : Talk) : IO Talk := do
  if d.closed then return d
  let d ← display d.ask
  let line ← nextLine
  if line.isEmpty then return d
  converse (← display (← settle fun answers => (withAnswers answers d).answer line))

end DeviceConfig.Terminal

open DeviceConfig in
def main : IO Unit := do
  let env : Environment :=
    { home := ← IO.getEnv "HOME"
      userProfile := ← IO.getEnv "USERPROFILE"
      topic := ← IO.getEnv "DEVCONF_TOPIC"
      logFormat := ← IO.getEnv "DEVCONF_LOG_FORMAT"
      dumpPath := ← IO.getEnv "DEVCONF_STATE_DUMP" }
  let started ← Terminal.settle fun answers => Session.start env { answers }
  let done ← Terminal.converse (← Terminal.display started)
  discard (Terminal.display (Session.finish done))
