/-
States of the device and levels of its log.
-/
namespace DeviceConfig

/-- Where a device is in its life. -/
inductive ProcessState where
  | creating | idle | running | destroying | exiting
  deriving DecidableEq, Repr, Inhabited

namespace ProcessState

/-- Every state. -/
def all : List ProcessState := [creating, idle, running, destroying, exiting]

def name : ProcessState → String
  | creating => "creating"
  | idle => "idle"
  | running => "running"
  | destroying => "destroying"
  | exiting => "exiting"

/-- The state with a given name. -/
def ofName? (name : String) : Option ProcessState := all.find? (·.name == name)

/-- The number of a state in a document. -/
def toWord : ProcessState → UInt32
  | creating => 0
  | idle => 1
  | running => 2
  | destroying => 3
  | exiting => 4

/-- The state that a document asks for.  Numbers without a meaning ask to exit. -/
def requested (w : UInt32) : ProcessState :=
  if w = 1 then idle
  else if w = 2 then running
  else if w = 3 then destroying
  else exiting

end ProcessState

/-- How much goes into the log. -/
inductive LogLevel where
  | critical | error | warn | info | debug | trace
  deriving DecidableEq, Repr, Inhabited

namespace LogLevel

/-- The number of a level in a document. -/
def toWord : LogLevel → UInt32
  | critical => 0
  | error => 1
  | warn => 2
  | info => 3
  | debug => 4
  | trace => 5

/-- The level with a number; numbers beyond the last level mean the last. -/
def ofWord (w : UInt32) : LogLevel :=
  if w = 0 then critical
  else if w = 1 then error
  else if w = 2 then warn
  else if w = 3 then info
  else if w = 4 then debug
  else trace

/-- The filter directive of a level.  There is none for `critical` alone. -/
def directive : LogLevel → String
  | critical | error => "error"
  | warn => "warn"
  | info => "info"
  | debug => "debug"
  | trace => "trace"

end LogLevel

end DeviceConfig
