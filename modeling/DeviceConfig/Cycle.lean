/-
Applying a configuration.

A `Cycle` is what one application works with: the reply it writes, the sensor and the
application it talks to, and the changes of life it asks for.  A `Step` applies something to
a part of the document.  Steps that follow one another are all taken, whatever became of the
earlier ones, and the outcome of the whole is the last failure.
-/
import DeviceConfig.Hook
import DeviceConfig.Response.Record
import DeviceConfig.Sensor.Basic
import DeviceConfig.State

namespace DeviceConfig

/-- Changes that an applied document asks of the device. -/
structure Requests where
  processState : Option ProcessState := none
  logLevel : Option LogLevel := none
  deriving DecidableEq, Inhabited

/-- What the application of one document works with. -/
structure Cycle (S H : Type) where
  reply : Reply
  sensor : S
  hook : H
  /-- The state of the device when the document arrived. -/
  state : ProcessState
  /-- The id of the request. -/
  requestId : String
  requests : Requests

namespace Cycle

variable {S H : Type}

/-- Makes a notification due. -/
def raise (c : Cycle S H) : Cycle S H := { c with reply := c.reply.raise }

/-- Writes a property.  A refusal becomes an error with the given text. -/
def push [Sensor S] (p : Property) (failure : String) (c : Cycle S H) : Verdict × Cycle S H :=
  match Sensor.write c.sensor p with
  | (.ok (), sensor) => (.ok (), { c with sensor })
  | (.error r, sensor) => (.error (.sensor r.code failure), { c with sensor })

/-- Hands settings to the application. -/
def configure [Hook H] (topic settings : String) (c : Cycle S H) : Verdict × Cycle S H :=
  let (outcome, hook) := Hook.configure c.hook topic settings
  (outcome, { c with hook })

end Cycle

/-- What has become of a value and its cycle. -/
structure Progress (α S H : Type) where
  value : α
  cycle : Cycle S H
  outcome : Verdict

/-- Something that is applied to a value. -/
abbrev Step (α S H : Type) := α → Cycle S H → Progress α S H

namespace Step

variable {α β S H : Type}

/-- Nothing to do. -/
def skip : Step α S H := fun a c => ⟨a, c, .ok ()⟩

/-- A step only if there is something to apply. -/
def whenSome {γ : Type} (found : Option γ) (f : γ → Step α S H) : Step α S H :=
  match found with
  | some x => f x
  | none => skip

/-- Stores a value, with notice if it is a change. -/
def store [BEq α] (new : α) : Step α S H := fun old c =>
  if old == new then ⟨old, c, .ok ()⟩ else ⟨new, c.raise, .ok ()⟩

/-- One step and then another, whatever became of the first. -/
def andThen (f g : Step α S H) : Step α S H := fun a c =>
  let p := f a c
  let q := g p.value p.cycle
  { q with outcome := p.outcome.lastFailure q.outcome }

/-- Several steps, one after the other. -/
def all (steps : List (Step α S H)) : Step α S H := steps.foldr andThen skip

/-- A step on a part of a value. -/
def on (part : α → β) (put : β → α → α) (f : Step β S H) : Step α S H := fun a c =>
  let p := f (part a) c
  ⟨put p.value a, p.cycle, p.outcome⟩

end Step

end DeviceConfig
