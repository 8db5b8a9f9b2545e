/-
A worker that looks at a value again and again.

It sees snapshots: what it has seen does not change when the value does.
-/
namespace DeviceConfig

/-- A worker and the snapshots that it has seen, oldest first. -/
structure Worker (α : Type) where
  seen : List α
  running : Bool

namespace Worker

variable {α : Type}

/-- A worker that has taken its first look at a value. -/
def start (value : α) : Worker α := ⟨[value], true⟩

/-- Takes another look, unless it has been stopped. -/
def look (value : α) (w : Worker α) : Worker α :=
  if w.running then { w with seen := w.seen ++ [value] } else w

/-- Stops the worker.  Stopping it again does nothing. -/
def stop (w : Worker α) : Worker α := { w with running := false }

end Worker

end DeviceConfig
