/-
Sensors.

A sensor is anything whose state takes writes and answers reads.  A write may be refused,
with a cause; a read may answer nothing, and what it answers need not even be the property
that was asked for.
-/
import DeviceConfig.Response.Code
import DeviceConfig.Sensor.Property

namespace DeviceConfig

/-- Why a sensor refuses a write. -/
inductive Cause where
  | invalidArgument | outOfRange | notAvailable
  deriving DecidableEq, Repr

namespace Cause

def name : Cause → String
  | invalidArgument => "InvalidArgument"
  | outOfRange => "OutOfRange"
  | notAvailable => "NotAvailable"

/-- Every cause. -/
def all : List Cause := [invalidArgument, outOfRange, notAvailable]

/-- The cause with a given name. -/
def ofName? (name : String) : Option Cause := all.find? (·.name == name)

/-- The code of a response to a request that failed for this cause. -/
def code : Cause → Code
  | outOfRange => .outOfRange
  | invalidArgument | notAvailable => .invalidArgument

end Cause

/-- A refused write. -/
structure Rejection where
  cause : Cause
  message : String
  deriving DecidableEq, Repr

namespace Rejection

def code (r : Rejection) : Code := r.cause.code

def text (r : Rejection) : String := s!"{r.cause.name}: {r.message}"

end Rejection

/-- A state that takes properties and reports them. -/
class Sensor (S : Type) where
  /-- Writes a property. -/
  write : S → Property → Except Rejection Unit × S
  /-- What the sensor reports for a key. -/
  read : S → Key → Option Property

/-- A write and its outcome. -/
structure Write where
  property : Property
  outcome : Except Rejection Unit

/-- A sensor together with every write made to it, oldest first. -/
structure Recorder (S : Type) where
  sensor : S
  writes : List Write := []

namespace Recorder

/-- The same sensor with nothing recorded. -/
def clear {S : Type} (r : Recorder S) : Recorder S := { r with writes := [] }

instance {S : Type} [Sensor S] : Sensor (Recorder S) where
  write r p :=
    let (outcome, sensor) := Sensor.write r.sensor p
    (outcome, { sensor, writes := r.writes ++ [⟨p, outcome⟩] })
  read r k := Sensor.read r.sensor k

end Recorder

end DeviceConfig
