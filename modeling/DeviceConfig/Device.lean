/-
The device around a document.

It knows its current state and the one it is about to enter, holds a configuration that waits
to be applied, and owns the sensor and the application's hook.  Once it is about to be
destroyed, nothing keeps it from that.
-/
import DeviceConfig.Document

namespace DeviceConfig

/-- A device with some sensor and some application. -/
structure Device (S H : Type) where
  document : Document := {}
  collaborators : Collaborators S H
  current : ProcessState := .creating
  next : ProcessState := .creating
  /-- A configuration that waits to be applied. -/
  pending : Option String := none

namespace Device

variable {S H : Type}

/-- A new device. -/
def new (sensor : S) (hook : H) : Device S H := { collaborators := ⟨sensor, hook⟩ }

/-- A notification is due. -/
def isRaised (d : Device S H) : Bool := d.document.reply.raised

/-- The device with its reply changed. -/
def onReply (f : Reply → Reply) (d : Device S H) : Device S H :=
  { d with document := { d.document with reply := f d.document.reply } }

/-- Enters a state, which the document shows if it can. -/
def enter (s : ProcessState) (d : Device S H) : Device S H :=
  { d with
    current := s
    next := if d.next = .destroying then .destroying else s
    document := { d.document with common := d.document.common.setState s } }

/-- Plans to enter a state.  A plan to be destroyed is final. -/
def plan (s : ProcessState) (d : Device S H) : Device S H :=
  if d.next = .destroying then d else { d with next := s }

/-- Enters the planned state. -/
def transition (d : Device S H) : Device S H :=
  if d.next = d.current then d else d.enter d.next

/-- Loads everything that the sensor reports into the document. -/
def load [Sensor S] (d : Device S H) : Device S H :=
  { d with document := d.document.load d.collaborators.sensor }

/-- Updates the document.  What the update asks for is taken out of the document, whatever the
outcome. -/
def update [Sensor S] [Hook H] (text : String) (d : Device S H) :
    Verdict × Requests × Device S H :=
  let u := d.document.update d.current text d.collaborators
  (u.outcome, u.document.requests,
    { d with
      document := { u.document with requests := {} }
      collaborators := u.collaborators })

end Device

end DeviceConfig
