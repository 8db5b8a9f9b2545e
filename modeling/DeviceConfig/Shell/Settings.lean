/-
The settings of the shell.

They are kept in a file, which only its owner can read if the shell has made it, and
environment variables go before what the file says.
-/
import DeviceConfig.Shell.Environment
import DeviceConfig.Toml.Reader
import DeviceConfig.Toml.Writer

namespace DeviceConfig

/-- The form of log records. -/
inductive LogFormat where
  | compact | json
  deriving DecidableEq, Repr, Inhabited

namespace LogFormat

def name : LogFormat → String
  | compact => "compact"
  | json => "json"

/-- The form with a given name. -/
def ofName? (name : String) : Option LogFormat := [compact, json].find? (·.name == name)

end LogFormat

/-- What the user can choose. -/
structure Settings where
  logFormat : LogFormat := .compact
  /-- The topic on which documents are sent. -/
  topic : String := "edge_app"
  /-- The file that gets every document that is sent. -/
  dumpPath : Option String := none
  /-- The document's number of the state in which the device starts. -/
  initialState : UInt32 := 1
  deriving DecidableEq, Repr, Inhabited

/-- Why settings cannot be loaded or saved. -/
inductive SettingsError where
  | unreadable (path : String) (e : FileError)
  | malformed
  | noDirectory (e : FileError)
  | noPermissions (e : FileError)
  | unwritable (path : String) (e : FileError)
  deriving DecidableEq, Repr

/-- The text of an error. -/
def SettingsError.message : SettingsError → String
  | unreadable path e => s!"Failed to read config at {path}: {e.message}"
  | malformed => "Failed to parse config"
  | noDirectory e => s!"Failed to create config directory: {e.message}"
  | noPermissions e => s!"Failed to set config directory permissions: {e.message}"
  | unwritable path e => s!"Failed to write config at {path}: {e.message}"

namespace Settings

/-- The settings with what the environment says in their place.  A log format that does not
exist is not taken. -/
def override (env : Environment) (s : Settings) : Settings :=
  { s with
    topic := env.topic.getD s.topic
    logFormat := (env.logFormat.bind LogFormat.ofName?).getD s.logFormat
    dumpPath := env.dumpPath <|> s.dumpPath }

/-! ### Reading -/

/-- A value that holds nothing. -/
def isVoid : Toml.Node → Bool
  | .array items => items.isEmpty
  | .table _ entries => entries.isEmpty
  | _ => false

/-- A log format: its name, or a table with nothing but its name as a key of nothing. -/
def logFormat? : Toml.Node → Option LogFormat
  | .string name => LogFormat.ofName? name
  | .table _ [(name, value)] => if isVoid value then LogFormat.ofName? name else none
  | _ => none

def string? : Toml.Node → Option String
  | .string s => some s
  | _ => none

/-- An integer that is a word. -/
def word? : Toml.Node → Option UInt32
  | .integer n => if 0 ≤ n ∧ n < 0x100000000 then some (UInt32.ofNat n.toNat) else none
  | _ => none

/-- The value of a key, or a default if there is no such key. -/
def setting? {α : Type} (entries : Toml.Entries) (key : String) (default : α)
    (value? : Toml.Node → Option α) : Option α :=
  match entries.lookup key with
  | none => some default
  | some node => value? node

/-- The settings that entries give.  Other entries do not matter. -/
def ofEntries? (entries : Toml.Entries) : Option Settings := do
  let standard : Settings := {}
  some
    { logFormat := ← setting? entries "log_format" standard.logFormat logFormat?
      topic := ← setting? entries "topic" standard.topic string?
      dumpPath := ← setting? entries "state_dump_path" none fun node => (string? node).map some
      initialState := ← setting? entries "initial_process_state" standard.initialState word? }

/-- The settings that a text gives. -/
def ofText? (text : String) : Option Settings := (Toml.ofText? text).bind ofEntries?

/-! ### Writing -/

/-- A line of the settings file. -/
def line (key value : String) : String := s!"{key} = {value}\n"

/-- The text of the settings file. -/
def text (s : Settings) : String :=
  String.join <|
    [line "log_format" (Toml.Writer.string s.logFormat.name),
      line "topic" (Toml.Writer.string s.topic)] ++
    (s.dumpPath.map fun path => line "state_dump_path" (Toml.Writer.string path)).toList ++
    [line "initial_process_state" (toString s.initialState.toNat)]

/-! ### The file -/

variable {F : Type} [FileStore F]

/-- The settings in a file, if it is there. -/
def loadFile (path : String) (files : F) : Except SettingsError (Option Settings) × F :=
  match FileStore.present path files with
  | (false, files) => (.ok none, files)
  | (true, files) => match FileStore.read path files with
    | (.error e, files) => (.error (.unreadable path e), files)
    | (.ok text, files) => match ofText? text with
      | some s => (.ok (some s), files)
      | none => (.error .malformed, files)

/-- The settings of the user, if there are any. -/
def load (env : Environment) (files : F) : Except SettingsError (Option Settings) × F :=
  let (found, files) := loadFile env.settingsPath files
  (found.map (Option.map (override env)), files)

/-- Saves the settings of the user in a directory that is closed to others. -/
def save (env : Environment) (s : Settings) (files : F) : Except SettingsError Unit × F :=
  match FileStore.makeDirectory env.settingsDirectory files with
  | (.error e, files) => (.error (.noDirectory e), files)
  | (.ok (), files) =>
    match FileStore.setMode env.settingsDirectory Mode.privateDirectory files with
    | (.error e, files) => (.error (.noPermissions e), files)
    | (.ok (), files) =>
      match FileStore.write env.settingsPath Mode.privateFile s.text files with
      | (.error e, files) => (.error (.unwritable env.settingsPath e), files)
      | (.ok (), files) => (.ok (), files)

end Settings

end DeviceConfig
