/-
The life of a device.

Configurations are queued and applied one at a time.  After each of them, whatever became of
it, the document is sent out if a notification is due; only a successful sending settles it.
A configuration that fails takes the device back to idle.
-/
import DeviceConfig.Device

namespace DeviceConfig

/-- What can go wrong around a document. -/
inductive RuntimeError where
  | config (e : ConfigError)
  | dispatch (detail : String)
  | telemetry (detail : String)
  deriving DecidableEq, Repr

/-- The text of an error. -/
def RuntimeError.message : RuntimeError → String
  | config e => e.message
  | dispatch detail => s!"State dispatch failed: {detail}"
  | telemetry detail => s!"Log filter reload failed: {detail}"

/-- A state that receives documents. -/
class Sink (K : Type) where
  /-- Sends a document on a topic. -/
  send : K → (topic : String) → Serialized → Except RuntimeError Unit × K

/-- The filter of the log. -/
inductive LogFilter where
  /-- Nothing listens, so a change has no effect. -/
  | detached
  | live (directive : String)
  /-- The log has gone away, so a change fails. -/
  | lost
  deriving DecidableEq, Repr, Inhabited

/-- Sets the filter for a level. -/
def LogFilter.setLevel (level : LogLevel) : LogFilter → Except RuntimeError Unit × LogFilter
  | detached => (.ok (), detached)
  | live _ => (.ok (), live level.directive)
  | lost => (.error (.telemetry "the log has gone away"), lost)

/-- What became of the queue. -/
inductive Processed where
  /-- No configuration was waiting. -/
  | nothing
  | applied
  | rejected (e : ConfigError)
  deriving DecidableEq, Repr

/-- A device, and where its documents go. -/
structure Lifecycle (S H K : Type) where
  device : Device S H
  sink : K
  topic : String
  logFilter : LogFilter := .detached

namespace Lifecycle

variable {S H K : Type}

/-- The lifecycle with its device changed. -/
def onDevice (f : Device S H → Device S H) (l : Lifecycle S H K) : Lifecycle S H K :=
  { l with device := f l.device }

/-- Loads what the sensor reports and enters a first state. -/
def start [Sensor S] (s : ProcessState) (l : Lifecycle S H K) : Lifecycle S H K :=
  l.onDevice fun d => d.load.enter s

/-- Enters the planned state. -/
def transition (l : Lifecycle S H K) : Lifecycle S H K := l.onDevice Device.transition

/-- Plans a state and enters the planned one, which may be another. -/
def moveTo (s : ProcessState) (l : Lifecycle S H K) : Lifecycle S H K :=
  l.onDevice fun d => (d.plan s).transition

/-- Enters the last state of all. -/
def shutdown (l : Lifecycle S H K) : Lifecycle S H K := l.moveTo .destroying

/-! ### Queueing -/

/-- The request id of a text, if it is an object that has one. -/
def requestId? (text : String) : Option String := do
  let root ← Object.ofText? text
  let info ← Object.object? root "req_info"
  Object.string? info "req_id"

/-- Queues a text, in place of one that may be waiting.  A text without a request id is
ignored, and so is one whose id the document already has. -/
def enqueue (text : String) (l : Lifecycle S H K) : Bool × Lifecycle S H K :=
  match requestId? text with
  | some id =>
    if id = l.device.document.request.id then (false, l)
    else (true, l.onDevice fun d => { d with pending := some text })
  | none => (false, l)

/-! ### Sending -/

/-- Sends the document if a notification is due.  It stays due if that fails. -/
def dispatch [Sink K] (l : Lifecycle S H K) : Except RuntimeError Bool × Lifecycle S H K :=
  if l.device.isRaised then
    match l.device.document.serialize with
    | .error e => (.error (.config e), l)
    | .ok text =>
      match Sink.send l.sink l.topic text with
      | (.error e, sink) => (.error e, { l with sink })
      | (.ok (), sink) =>
        (.ok true, { l with sink, device := l.device.onReply Reply.lower })
  else (.ok false, l)

/-! ### Applying -/

/-- Enters the state that an update asks for. -/
def followState (requested : Option ProcessState) (l : Lifecycle S H K) : Lifecycle S H K :=
  match requested with
  | some s => if s = l.device.current then l else l.moveTo s
  | none => l

/-- Does what an update asks for.  If the log level cannot be set, the state is left alone. -/
def follow (r : Requests) (l : Lifecycle S H K) : Lifecycle S H K :=
  match r.logLevel with
  | some level =>
    match l.logFilter.setLevel level with
    | (.ok (), logFilter) => followState r.processState { l with logFilter }
    | (.error _, logFilter) => { l with logFilter }
  | none => followState r.processState l

/-- After a failure the device is idle and a notification is due. -/
def settle (outcome : Verdict) (l : Lifecycle S H K) : Lifecycle S H K :=
  match outcome with
  | .ok () => l
  | .error _ => (l.moveTo .idle).onDevice fun d => d.onReply Reply.raise

/-- What became of a configuration. -/
def processed : Verdict → Processed
  | .ok () => .applied
  | .error e => .rejected e

/-- Applies the waiting configuration, if there is one, and sends the document. -/
def process [Sensor S] [Hook H] [Sink K] (l : Lifecycle S H K) :
    Except RuntimeError Processed × Lifecycle S H K :=
  match l.device.pending with
  | none => (.ok .nothing, l)
  | some text =>
    let (outcome, requests, device) := { l.device with pending := none }.update text
    match (settle outcome (follow requests { l with device })).dispatch with
    | (.ok _, l) => (.ok (processed outcome), l)
    | (.error e, l) => (.error e, l)

end Lifecycle

end DeviceConfig
