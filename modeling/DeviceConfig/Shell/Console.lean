/-
The console.

It shows what the shell prints, and takes the documents that the device sends: it writes each
of them to a file, if it has been given one, and shows in a line what the response says.
-/
import DeviceConfig.Lifecycle
import DeviceConfig.Shell.Files

namespace DeviceConfig

/-- What has been printed, and the files. -/
structure Console (F : Type) where
  files : F
  /-- The file that gets every document that is sent. -/
  dumpPath : Option String := none
  /-- How many documents have been sent. -/
  sent : Nat := 0
  /-- What has been printed, the latest first. -/
  printed : List String := []

namespace Console

variable {F : Type}

/-- Prints a text. -/
def print (text : String) (c : Console F) : Console F := { c with printed := text :: c.printed }

/-- Prints a text on a line of its own. -/
def printLine (text : String) (c : Console F) : Console F := c.print (text ++ "\n")

/-- Everything that has been printed. -/
def output (c : Console F) : String := String.join c.printed.reverse

/-- The response in the text of a document. -/
def response (text : String) : Record := ((Envelope.ofText? text).map (·.record)).getD default

/-- The line about a document. -/
def report (topic text : String) : String :=
  let r := response text
  let mark := if r.code = 0 then "✓" else "✗"
  s!"  {mark} state → {topic} (res_id {r.resId}, code {r.code.toNat}) {r.detail}"

/-- Writes the text of a document to the file that gets them. -/
def dump [FileStore F] (text : String) (c : Console F) : Except RuntimeError Unit × Console F :=
  match c.dumpPath with
  | none => (.ok (), c)
  | some path => match FileStore.write path Mode.shared text c.files with
    | (.ok (), files) => (.ok (), { c with files })
    | (.error e, files) => (.error (.dispatch s!"write {path}: {e.message}"), { c with files })

/-- A document counts as sent once it has been written to the file. -/
instance [FileStore F] : Sink (Console F) where
  send c topic s := match c.dump s.text with
    | (.ok (), c) => (.ok (), { c with sent := c.sent + 1 }.printLine (report topic s.text))
    | (.error e, c) => (.error e, c)

end Console

end DeviceConfig
