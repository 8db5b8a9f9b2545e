/-
A configuration on its way from the queue to the sink.

A device that is ready for the next configuration plans nothing but the state it is in, shows that
state if it can be shown, and is not about to be destroyed.  To move such a device to a state is to
enter it, whether the device is there already or not.  So all that follows an update can be told in
one line: the device enters the state that is asked for, or the idle one if the update has failed.
What is asked for need not be asked by the update itself: an update of the document alone asks, and
leaves it to others to follow.

The sink has no say in that.  What it is sent, and what has become of the device by then, is settled
before it is asked; its answer only decides whether the notification is still due.
-/
import DeviceConfig.Proofs.Destruction
import DeviceConfig.Proofs.Paths
import DeviceConfig.Proofs.Queue
import DeviceConfig.Proofs.Serialization

namespace DeviceConfig

variable {S H K : Type}

namespace Document

end Document

namespace Device

/-- A device shows the state that it enters, if it is one that a document can show. -/
theorem shown_enter (d : Device S H) (s : ProcessState) {w : WorkingState}
    (hw : (d.enter s).current = w.toState) : (d.enter s).document.common.state = w := by
  obtain rfl : s = w.toState := hw
  cases w <;> rfl

/-! ### Devices that are ready -/

/-- The device is between two configurations, and nothing is about to destroy it. -/
structure Ready (d : Device S H) : Prop where
  settled : d.next = d.current
  alive : d.next ≠ .destroying
  /-- The document shows the state of the device, if it is one that a document can show. -/
  shown : ∀ s : WorkingState, d.current = s.toState → d.document.common.state = s

namespace Ready

variable {d : Device S H}

theorem withPending (h : d.Ready) (pending : Option String) : { d with pending }.Ready :=
  ⟨h.settled, h.alive, h.shown⟩

theorem enter (h : d.Ready) {s : ProcessState} (hs : s ≠ .destroying) : (d.enter s).Ready where
  settled := settled_enter h.alive s
  alive := by
    rw [show (d.enter s).next = s from if_neg h.alive]
    exact hs
  shown _ hw := shown_enter d s hw

/-- An update leaves a ready device ready. -/
theorem update [Sensor S] [Hook H] (h : d.Ready) (text : String) :
    (d.update text).2.2.Ready := by
  refine ⟨h.settled, h.alive, fun s hs => ?_⟩
  rw [show (d.update text).2.2.document.common.state = d.document.common.state from
    Document.update_state d.current text d.collaborators d.document]
  exact h.shown s hs

end Ready

end Device

/-! ### All that follows an update -/

/-- The log can be set to what is asked for. -/
def LogFilter.Heeds (r : Requests) (f : LogFilter) : Prop := f = .lost → r.logLevel = none

namespace Lifecycle

end Lifecycle

end DeviceConfig
