/-
Output ports.

There are two, one for metadata and one for the input tensor.  A change is allowed only if
it leaves at least one of them enabled, and it is pushed to the sensor as the pair of enabled
channels.
-/
import DeviceConfig.Check
import DeviceConfig.Cycle

namespace DeviceConfig

/-- Where the data of one channel goes. -/
structure Port where
  method : Option UInt32 := none
  storageName : Option String := none
  endpoint : Option String := none
  path : Option String := none
  enabled : Option Bool := none
  deriving DecidableEq, Inhabited

namespace Port

variable {S H : Type}

/-- A port is enabled only if a document says so. -/
def isEnabled (p : Port) : Bool := p.enabled.getD false

def rules : List Rule :=
  Rule.natural "method" ++
    [.kind "storage_name" .string, .kind "endpoint" .string, .kind "path" .string,
      .kind "enabled" .boolean]

/-- The verdict on a candidate for one port. -/
def check : Check := Check.object rules []

/-- The port with the fields of a candidate put in. -/
def merge (candidate : Object) (p : Port) : Port where
  method := Object.word? candidate "method" <|> p.method
  storageName := Object.string? candidate "storage_name" <|> p.storageName
  endpoint := Object.string? candidate "endpoint" <|> p.endpoint
  path := Object.string? candidate "path" <|> p.path
  enabled := Object.bool? candidate "enabled" <|> p.enabled

/-- Applies a candidate to one port on its own, without notice. -/
def apply (candidate : Object) : Step Port S H := fun p c => ⟨p.merge candidate, c, .ok ()⟩

/-- The document value, with the fields that are known. -/
def toJson (p : Port) : Json :=
  .object <| Object.ofOptions
    [("method", p.method.map .word), ("storage_name", p.storageName.map .string),
      ("endpoint", p.endpoint.map .string), ("path", p.path.map .string),
      ("enabled", p.enabled.map .bool)]

end Port

/-- The port section. -/
structure Ports where
  metadata : Port := {}
  inputTensor : Port := {}
  deriving DecidableEq, Inhabited

namespace Ports

variable {S H : Type}

/-- The port with the fields that the candidate has under a name put in. -/
def mergeField (candidate : Object) (name : String) (p : Port) : Port :=
  match Object.object? candidate name with
  | some fragment => p.merge fragment
  | none => p

/-- Both ports with a candidate put in. -/
def merge (candidate : Object) (p : Ports) : Ports where
  metadata := mergeField candidate "metadata" p.metadata
  inputTensor := mergeField candidate "input_tensor" p.inputTensor

/-- The channels that are enabled. -/
def channels (p : Ports) : Channels := ⟨p.metadata.isEnabled, p.inputTensor.isEnabled⟩

/-- At least one port is enabled. -/
def anyEnabled (p : Ports) : Bool := p.metadata.isEnabled || p.inputTensor.isEnabled

/-- The verdict on a candidate for the section. -/
def check (p : Ports) : Check := fun candidate => do
  Check.object [] [("metadata", Port.check), ("input_tensor", Port.check)] candidate
  if p.merge candidate ≠ p ∧ !(p.merge candidate).anyEnabled then
    .error (.invalid "Neither input tensor or metadata are enabled")
  else .ok ()

/-- What the response says when the sensor refuses the channels. -/
def failure : String := "Input Data Type property failed to be set."

/-- Applies a candidate. -/
def apply [Sensor S] (candidate : Object) : Step Ports S H := fun p c =>
  let next := p.merge candidate
  if next = p then ⟨p, c, .ok ()⟩
  else match c.push ⟨.inputDataType, next.channels⟩ failure with
    | (.ok (), c) => ⟨next, c.raise, .ok ()⟩
    | (.error e, c) => ⟨p, c, .error e⟩

def toJson (p : Ports) : Json :=
  .ofMembers [("metadata", p.metadata.toJson), ("input_tensor", p.inputTensor.toJson)]

end Ports

end DeviceConfig
