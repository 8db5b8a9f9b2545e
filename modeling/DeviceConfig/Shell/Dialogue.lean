/-
The dialogue of the shell with its user.

The shell asks for a line, does what it says, and asks again, until it is told to leave or
there are no more lines.
-/
import DeviceConfig.Json.Text
import DeviceConfig.Json.Written
import DeviceConfig.Shell.Command
import DeviceConfig.Shell.Console

namespace DeviceConfig

/-- A device at the console. -/
structure Dialogue (S H F : Type) where
  lifecycle : Lifecycle S H (Console F)
  /-- The user has left, or somebody else wants the shell to end. -/
  closed : Bool := false

namespace Dialogue

variable {S H F : Type}

/-- The dialogue with its console changed. -/
def onConsole (f : Console F → Console F) (d : Dialogue S H F) : Dialogue S H F :=
  { d with lifecycle := { d.lifecycle with sink := f d.lifecycle.sink } }

/-- Prints a text on a line of its own. -/
def printLine (text : String) (d : Dialogue S H F) : Dialogue S H F :=
  d.onConsole (Console.printLine text)

/-- Prints some lines. -/
def printLines (lines : List String) (d : Dialogue S H F) : Dialogue S H F :=
  lines.foldl (fun d line => d.printLine line) d

/-! ### What the commands do -/

def helpLines : List String :=
  ["", "devconf Commands",
    "  /apply <file> – apply a configuration file",
    "  /send <json>  – apply an inline JSON document",
    "  /state        – print the outbound state",
    "  /pending      – show pending flags",
    "  /quit  /exit  – exit the shell",
    ""]

/-- The line about what became of a document. -/
def outcomeLine : Except RuntimeError Processed → String
  | .ok .applied => "✓ Configuration applied."
  | .ok (.rejected e) => s!"✗ Rejected: {e.message} ({e.code.toWord.toNat})"
  | .ok .nothing => "Nothing pending."
  | .error e => s!"Dispatch error: {e.message}"

/-- Queues a document and applies it. -/
def submit [Sensor S] [Hook H] [FileStore F] (text : String) (d : Dialogue S H F) :
    Dialogue S H F :=
  match d.lifecycle.enqueue text with
  | (false, lifecycle) =>
    { d with lifecycle }.printLine
      "Ignored: not an object, no req_info.req_id, or req_id already applied."
  | (true, lifecycle) =>
    let (outcome, lifecycle) := lifecycle.process
    { d with lifecycle }.printLines
      [outcomeLine outcome, s!"  state: {lifecycle.device.current.name}"]

/-- Applies the document in a file. -/
def submitFile [Sensor S] [Hook H] [FileStore F] (path : String) (d : Dialogue S H F) :
    Dialogue S H F :=
  if path.isEmpty then d.printLine "Usage: /apply <file>"
  else
    let (content, files) := FileStore.read path d.lifecycle.sink.files
    let d := d.onConsole fun c => { c with files }
    match content with
    | .ok text => d.submit text
    | .error e => d.printLine s!"Cannot read {path}: {e.message}"

/-- The document in the form for people. -/
def stateText (l : Lifecycle S H (Console F)) : String :=
  match l.device.document.serialize with
  | .ok s => ((Json.ofText? s.text).map Json.pretty).getD s.text
  | .error e => s!"Serialize error: {e.message}"

def yesOrNo (b : Bool) : String := if b then "yes" else "no"

/-- What is waiting. -/
def pendingLines (d : Device S H) : List String :=
  [s!"  configuration pending : {yesOrNo d.pending.isSome}",
    s!"  notification pending  : {yesOrNo d.isRaised}",
    s!"  state                 : {d.current.name} → {d.next.name}"]

/-- Does what a command says. -/
def perform [Sensor S] [Hook H] [FileStore F] (command : Command) (d : Dialogue S H F) :
    Dialogue S H F :=
  match command with
  | .help => d.printLines helpLines
  | .apply path => d.submitFile path
  | .send text => d.submit text
  | .state => d.printLine (stateText d.lifecycle)
  | .pending => d.printLines (pendingLines d.lifecycle.device)
  | .quit => { d.printLine "Goodbye." with closed := true }
  | .unknown verb =>
    d.printLine s!"Unknown command: '{verb}'. Type /help for available commands."

/-! ### The course of a dialogue -/

/-- Asks for a line. -/
def ask (d : Dialogue S H F) : Dialogue S H F := d.onConsole (Console.print "devconf> ")

/-- Does what a line says.  A blank line says nothing. -/
def answer [Sensor S] [Hook H] [FileStore F] (line : String) (d : Dialogue S H F) :
    Dialogue S H F :=
  match Command.ofLine? line with
  | none => d
  | some command => d.perform command

/-- The dialogue over some lines, after which there are no more. -/
def run [Sensor S] [Hook H] [FileStore F] : List String → Dialogue S H F → Dialogue S H F
  | [], d => if d.closed then d else d.ask
  | line :: lines, d => if d.closed then d else run lines (d.ask.answer line)

/-- The lines of an input.  A line break ends a line, and the last line may go without. -/
def lines (input : String) : List String :=
  let parts := input.splitOn "\n"
  if parts.getLast? = some "" then parts.dropLast else parts

end Dialogue

end DeviceConfig
