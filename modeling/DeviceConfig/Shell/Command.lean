/-
The commands of the shell.
-/
import DeviceConfig.Text.Blank

namespace DeviceConfig

/-- What a line can ask for. -/
inductive Command where
  | help
  /-- Apply the document in a file. -/
  | apply (path : String)
  /-- Apply a document. -/
  | send (text : String)
  | state
  | pending
  | quit
  | unknown (verb : String)
  deriving DecidableEq, Repr

namespace Command

/-- The command of a verb and what comes after it. -/
def ofVerb (verb argument : String) : Command :=
  match verb with
  | "/help" => .help
  | "/apply" => .apply argument
  | "/send" => .send argument
  | "/state" => .state
  | "/pending" => .pending
  | "/quit" | "/exit" => .quit
  | verb => .unknown verb

/-- The command of a line, unless the line is blank.  The verb ends at the first space. -/
def ofLine? (line : String) : Option Command :=
  let text := Text.trim line.toList
  if text.isEmpty then none
  else
    let (verb, rest) := text.span (· != ' ')
    some (ofVerb (String.ofList verb) (String.ofList (Text.trim rest)))

end Command

end DeviceConfig
