/-
The common section.

It gathers what every application shares.  While the device runs, the parts that the running
stream depends on are left alone, and a candidate that would change them is answered with a
refusal; the rest of it is still applied.
-/
import DeviceConfig.Codec
import DeviceConfig.Inference
import DeviceConfig.Picture.Settings
import DeviceConfig.Port

namespace DeviceConfig

/-- The states that a document can show and ask for. -/
inductive WorkingState where
  | idle | running
  deriving DecidableEq, Repr, Inhabited

namespace WorkingState

def toState : WorkingState → ProcessState
  | idle => .idle
  | running => .running

/-- The number of a state in a document. -/
def toWord (s : WorkingState) : UInt32 := s.toState.toWord

/-- The state of a device, if a document can show it. -/
def ofState? : ProcessState → Option WorkingState
  | .idle => some idle
  | .running => some running
  | _ => none

end WorkingState

/-- The common section. -/
structure Common where
  state : WorkingState := .idle
  logLevel : UInt32 := LogLevel.warn.toWord
  inferencePerMessage : Option UInt32 := none
  inference : Inference := {}
  picture : Picture := {}
  ports : Ports := {}
  codec : Codec := {}
  deriving Inhabited

namespace Common

variable {S H : Type}

/-- The section after the device has changed its state, which shows only working states. -/
def setState (s : ProcessState) (a : Common) : Common :=
  { a with state := (WorkingState.ofState? s).getD a.state }

/-- The section with everything that a sensor reports. -/
def load [Sensor S] (sensor : S) (a : Common) : Common :=
  { a with picture := a.picture.load sensor }

def rules : List Rule :=
  Rule.range "process_state" 1 2 ++ Rule.range "log_level" 0 5 ++
    Rule.natural "number_of_inference_per_message" ++
    [.kind "inference_settings" .object, .kind "pq_settings" .object,
      .kind "port_settings" .object, .kind "codec_settings" .object]

/-- The verdict on a candidate for the section. -/
def check (a : Common) : Check :=
  Check.object rules
    [("inference_settings", Inference.check), ("pq_settings", a.picture.check),
      ("port_settings", a.ports.check), ("codec_settings", Codec.check)]

/-! ### While the device runs -/

/-- The fields that belong to the running stream. -/
def streamFields : List String :=
  ["pq_settings", "port_settings", "codec_settings", "number_of_inference_per_message"]

/-- A candidate has a field whose value is not the one given. -/
def differs (candidate : Object) (name : String) (current : Json) : Bool :=
  (Object.field? candidate name).any fun v => v != current

/-- A candidate would change what belongs to the running stream. -/
def changesStream (a : Common) (candidate : Object) : Bool :=
  differs candidate "pq_settings" a.picture.toJson ||
    differs candidate "port_settings" a.ports.toJson ||
    differs candidate "codec_settings" a.codec.toJson ||
    (Object.word? candidate "number_of_inference_per_message").any fun n =>
      some n != a.inferencePerMessage

/-- What the response says of a change that the running stream does not allow. -/
def refusal : String := "Ignoring Port Settings and Pq Settings since state is Running."

/-- Answers with the refusal if it is due. -/
def refuse (candidate : Object) : Step Common S H := fun a c =>
  if c.state = .running ∧ a.changesStream candidate then
    ⟨a, { c with reply := (c.reply.setDetail refusal).setCode .failedPrecondition }, .ok ()⟩
  else ⟨a, c, .ok ()⟩

/-- What is left of a candidate in some state of the device. -/
def admitted (state : ProcessState) (candidate : Object) : Object :=
  if state = .running then Object.eraseAll streamFields candidate else candidate

/-! ### Applying -/

/-- Records the state that a candidate asks for. -/
def requestState (candidate : Object) : Step Common S H := fun a c =>
  match Object.word? candidate "process_state" with
  | some w =>
    let requests := { c.requests with processState := some (.requested w) }
    ⟨a, { c with requests }, .ok ()⟩
  | none => ⟨a, c, .ok ()⟩

/-- Stores a new log level and asks for it. -/
def applyLogLevel (candidate : Object) : Step Common S H := fun a c =>
  match Object.word? candidate "log_level" with
  | some w =>
    if w = a.logLevel then ⟨a, c, .ok ()⟩
    else
      let requests := { c.requests with logLevel := some (.ofWord w) }
      ⟨{ a with logLevel := w }, { c with requests }.raise, .ok ()⟩
  | none => ⟨a, c, .ok ()⟩

/-- Stores how many inferences go into a message. -/
def applyInferencePerMessage (candidate : Object) : Step Common S H :=
  Step.whenSome (Object.word? candidate "number_of_inference_per_message") fun n =>
    Step.on inferencePerMessage (fun new a => { a with inferencePerMessage := new })
      (Step.store (some n))

/-- Applies a field to a part of the section if the field is an object. -/
def applyPart {β : Type} (candidate : Object) (name : String) (part : Common → β)
    (put : β → Common → Common) (f : Object → Step β S H) : Step Common S H :=
  Step.whenSome (Object.object? candidate name) fun fragment => Step.on part put (f fragment)

/-- Applies what the state of the device admits. -/
def applyAdmitted [Sensor S] (candidate : Object) : Step Common S H :=
  Step.all
    [applyInferencePerMessage candidate,
      applyPart candidate "inference_settings" inference
        (fun new a => { a with inference := new }) Inference.apply,
      applyPart candidate "pq_settings" picture
        (fun new a => { a with picture := new }) Picture.apply,
      applyPart candidate "port_settings" ports
        (fun new a => { a with ports := new }) Ports.apply,
      applyPart candidate "codec_settings" codec
        (fun new a => { a with codec := new }) Codec.apply]

/-- Applies a candidate. -/
def apply [Sensor S] (candidate : Object) : Step Common S H :=
  Step.all
    [requestState candidate, applyLogLevel candidate, refuse candidate,
      fun a c => applyAdmitted (admitted c.state candidate) a c]

def toJson (a : Common) : Json :=
  .object <| Object.ofOptions
    [("process_state", some (.word a.state.toWord)), ("log_level", some (.word a.logLevel)),
      ("number_of_inference_per_message", a.inferencePerMessage.map .word),
      ("inference_settings", some a.inference.toJson), ("pq_settings", some a.picture.toJson),
      ("port_settings", some a.ports.toJson), ("codec_settings", some a.codec.toJson)]

end Common

end DeviceConfig
