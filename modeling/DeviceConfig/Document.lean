/-
The configuration document.

An update reads a text, checks the whole candidate, and only then applies it.  The id of the
request is taken before the verdict, so that a rejected request is answered too.  A text that
is not an object changes nothing at all.
-/
import DeviceConfig.Common
import DeviceConfig.Custom
import DeviceConfig.Request
import DeviceConfig.Serialized

namespace DeviceConfig

/-- The whole document, with the changes of life that have been asked for since they were last
taken. -/
structure Document where
  request : Request := {}
  reply : Reply := {}
  common : Common := {}
  custom : Custom := {}
  requests : Requests := {}
  deriving Inhabited

/-- What an update works with besides the document. -/
structure Collaborators (S H : Type) where
  sensor : S
  hook : H

namespace Document

variable {S H : Type}

/-- The document with everything that a sensor reports. -/
def load [Sensor S] (sensor : S) (d : Document) : Document :=
  { d with common := d.common.load sensor }

/-! ### Checking -/

def rules : List Rule :=
  [.kind "req_info" .object, .kind "common_settings" .object, .kind "custom_settings" .object]

/-- The verdict on a candidate for the whole document. -/
def check (d : Document) : Check :=
  Check.object rules
    [("req_info", Request.check), ("res_info", Check.object [] []),
      ("common_settings", d.common.check), ("custom_settings", Check.anything)]

/-- The document with the id of a candidate, which the response carries too. -/
def correlate (candidate : Object) (d : Document) : Document :=
  let request := match Object.object? candidate "req_info" with
    | some fragment => d.request.take fragment
    | none => d.request
  { d with request, reply := d.reply.setId request.id }

/-- Takes the id of a candidate and reaches the verdict on it. -/
def verify (candidate : Object) (d : Document) : Verdict × Document :=
  let d := d.correlate candidate
  (d.check candidate, d)

/-! ### Applying -/

/-- What becomes of a document and its collaborators. -/
structure Updated (S H : Type) where
  document : Document
  collaborators : Collaborators S H
  outcome : Verdict

/-- The cycle in which a document is applied. -/
def cycle (state : ProcessState) (k : Collaborators S H) (d : Document) : Cycle S H where
  reply := d.reply
  sensor := k.sensor
  hook := k.hook
  state := state
  requestId := d.request.id
  requests := d.requests

/-- A failing section writes its error into the reply. -/
def reporting {α : Type} (f : Step α S H) : Step α S H := fun a c =>
  let p := f a c
  match p.outcome with
  | .ok () => p
  | .error e => { p with cycle := { p.cycle with reply := p.cycle.reply.recordError e } }

/-- The outcome of a section that is present, in place of the one before. -/
def section? {α : Type} (found : Option Object) (f : Object → Step α S H) (before : Verdict) :
    Step α S H := fun a c =>
  match found with
  | some fragment => reporting (f fragment) a c
  | none => ⟨a, c, before⟩

/-- Applies the common section and then the application's.  The outcome is that of the last
one present; the failure of an earlier one still shows in the reply. -/
def apply [Sensor S] [Hook H] (state : ProcessState) (candidate : Object)
    (k : Collaborators S H) (d : Document) : Updated S H :=
  let p := section? (Object.object? candidate "common_settings") Common.apply (.ok ())
    d.common (d.cycle state k)
  let q := section? (Object.object? candidate "custom_settings") Custom.apply p.outcome
    d.custom p.cycle
  { document :=
      { d with
        reply := q.cycle.reply
        common := p.value
        custom := q.value
        requests := q.cycle.requests }
    collaborators := ⟨q.cycle.sensor, q.cycle.hook⟩
    outcome := q.outcome }

/-- Checks a candidate and applies it if it passes.  The reply to the last request is forgotten
first. -/
def updateWith [Sensor S] [Hook H] (state : ProcessState) (candidate : Object)
    (k : Collaborators S H) (d : Document) : Updated S H :=
  match verify candidate { d with reply := d.reply.reset } with
  | (.error e, d) => ⟨{ d with reply := d.reply.recordError e }, k, .error e⟩
  | (.ok (), d) => d.apply state candidate k

/-- Reads a text as a document and updates with it. -/
def update [Sensor S] [Hook H] (state : ProcessState) (text : String)
    (k : Collaborators S H) (d : Document) : Updated S H :=
  match Json.ofText? text with
  | none => ⟨d, k, .error (.parse "not a JSON text")⟩
  | some v =>
    match v.object? with
    | none => ⟨d, k, .error .notAnObject⟩
    | some candidate => d.updateWith state candidate k

/-! ### Reading -/

def toJson (d : Document) : Json :=
  .ofMembers
    [("req_info", d.request.toJson), ("res_info", d.reply.toJson),
      ("common_settings", d.common.toJson), ("custom_settings", d.custom.toJson)]

/-- The text of the whole document. -/
def serialize (d : Document) : Except ConfigError Serialized := Serialized.ofJson d.toJson

end Document

end DeviceConfig
