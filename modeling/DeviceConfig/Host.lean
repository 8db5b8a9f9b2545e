/-
A place for at most one device, which is made when it is first needed.
-/
namespace DeviceConfig

/-- A place for a device, and what a new device is. -/
structure Host (D : Type) where
  fresh : D
  slot : Option D := none

namespace Host

variable {D β : Type}

/-- The place holds a device. -/
def isAlive (h : Host D) : Bool := h.slot.isSome

/-- The device, made new if there is none. -/
def current (h : Host D) : D := h.slot.getD h.fresh

/-- Does something with the device, which is made new if there is none. -/
def use (f : D → β × D) (h : Host D) : β × Host D :=
  let (b, d) := f h.current
  (b, { h with slot := some d })

/-- Drops the device, so that the next use makes a new one. -/
def delete (h : Host D) : Host D := { h with slot := none }

end Host

end DeviceConfig
