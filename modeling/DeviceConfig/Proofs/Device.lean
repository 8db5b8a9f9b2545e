/-
What a device does with an update, and with its states.

A rejected update leaves no trace beyond the reply.  The verdict is reached on the whole
candidate before anything is applied, so neither the sensor nor the application hears of the
candidate, however deep in it the fault lies.  Of a text that passes the sections are applied that
it has, and a section that it does not have is left alone.

A device is settled while it plans nothing but the state it is in.  Entering a state is the
only thing around a device that writes into the document without giving notice, and a settled
device enters a state only on demand.
-/
import DeviceConfig.Device
import DeviceConfig.Proofs.Document

namespace DeviceConfig

variable {S H : Type}

/-! ### Rejection -/

/-- The same collaborators, with a record of whatever is asked of them. -/
def Collaborators.recorded (k : Collaborators S H) :
    Collaborators (Recorder S) (HookRecorder H) := ⟨⟨k.sensor, []⟩, ⟨k.hook, []⟩⟩

namespace Document

/-- A text that a document does not take: it is not an object, or one that does not pass. -/
def Rejects (d : Document) (text : String) : Prop :=
  ∀ candidate, Object.ofText? text = some candidate → ∃ e, (d.verify candidate).1 = .error e

/-- A text that is an object is rejected if and only if the object does not pass. -/
theorem rejects_of_object {d : Document} {text : String} {candidate : Object}
    (htext : Object.ofText? text = some candidate) :
    d.Rejects text ↔ (d.verify candidate).1 ≠ .ok () := by
  constructor
  · intro h hok
    obtain ⟨e, herror⟩ := h candidate htext
    rw [hok] at herror
    cases herror
  · intro h other hother
    obtain rfl : candidate = other := Option.some.inj (htext.symm.trans hother)
    cases hverify : (d.verify candidate).1 with
    | error e => exact ⟨e, rfl⟩
    | ok _ => exact absurd hverify h

/-- A text is rejected, or it is an object that passes. -/
theorem rejects_or_passes (d : Document) (text : String) :
    d.Rejects text ∨
      ∃ candidate, Object.ofText? text = some candidate ∧ (d.verify candidate).1 = .ok () := by
  cases htext : Object.ofText? text with
  | none =>
      refine .inl fun candidate h => ?_
      rw [htext] at h
      cases h
  | some candidate =>
      cases hverify : (d.verify candidate).1 with
      | ok _ => exact .inr ⟨candidate, rfl, hverify⟩
      | error e =>
          refine .inl ((rejects_of_object htext).mpr fun hok => ?_)
          rw [hverify] at hok
          cases hok

/-- Nothing but the request and the reply is left of a rejected update, and not even these of
a text that is not an object. -/
theorem update_of_rejects [Sensor S] [Hook H] {d : Document} {text : String}
    (hrejects : d.Rejects text) (state : ProcessState) (k : Collaborators S H) :
    ∃ request reply e, d.update state text k = ⟨{ d with request, reply }, k, .error e⟩ ∧
      (Object.ofText? text = none → { d with request, reply } = d) := by
  cases htext : Object.ofText? text with
  | none =>
      obtain ⟨e, hupdate⟩ := update_of_not_object htext state k d
      exact ⟨d.request, d.reply, e, hupdate, fun _ => rfl⟩
  | some candidate =>
      obtain ⟨e, hverify⟩ := hrejects candidate htext
      rw [update_of_object htext, updateWith_of_rejected hverify]
      exact ⟨_, _, e, rfl, nofun⟩

/-- **A rejected update changes nothing but the request and the reply.**  A text that is not an
object does not even change these.  Whatever the sensor and the application are, they are left
as they were, and nothing has been asked of them; and what an update asks of the device is
empty if it was before. -/
theorem update_rejected_preserves [Sensor S] [Hook H] {d : Document} {text : String}
    (hrejects : d.Rejects text) (state : ProcessState) (k : Collaborators S H) :
    let u := d.update state text k
    let heard := (d.update state text k.recorded).collaborators
    (Object.ofText? text = none → u.document = d) ∧
      (∃ request reply, u.document = { d with request, reply }) ∧ u.collaborators = k ∧
      (∃ e, u.outcome = .error e) ∧ heard.sensor.writes = [] ∧ heard.hook.calls = [] ∧
      ∀ device : Device S H, device.document = d → d.requests = {} →
        (device.update text).2.1 = {} := by
  intro u heard
  obtain ⟨request, reply, e, hupdate, hsame⟩ := update_of_rejects hrejects state k
  have hu : u = ⟨{ d with request, reply }, k, .error e⟩ := hupdate
  have hheard : heard = k.recorded := by
    obtain ⟨request, reply, e, hrecorded, -⟩ := update_of_rejects hrejects state k.recorded
    simp only [heard, hrecorded]
  refine ⟨fun hnone => ?_, ⟨request, reply, ?_⟩, ?_, ⟨e, ?_⟩, ?_, ?_, ?_⟩
  · rw [hu]
    exact hsame hnone
  · rw [hu]
  · rw [hu]
  · rw [hu]
  · rw [hheard]
    rfl
  · rw [hheard]
    rfl
  · intro device hdevice hrequests
    obtain ⟨request, reply, e, hupdate, -⟩ :=
      update_of_rejects hrejects device.current device.collaborators
    simp only [Device.update, hdevice, hupdate, hrequests]

/-- A request with a fault in a register, among settings that would all have been applied. -/
def registerRequest : String :=
  (Json.ofMembers [("req_info", .ofMembers [("req_id", .string "9")]),
    ("common_settings", .ofMembers [("log_level", .word 5), ("pq_settings", .ofMembers
      [("digital_zoom", .word 2), ("register_access", .array [.ofMembers []])])]),
    ("custom_settings", .ofMembers [("gain", .word 1)])]).text

/-- A fault in a single register keeps everything else from being applied. -/
theorem update_rejected_preserves_register :
    let d : Document := {}
    let u := d.update .idle registerRequest zoomless
    d.Rejects registerRequest ∧ (∃ request reply, u.document = { d with request, reply }) ∧
      u.collaborators = zoomless ∧ u.document.request.id = "9" := by
  let candidate := (Object.ofText? registerRequest).get (by decide +kernel)
  have htext : Object.ofText? registerRequest = some candidate := (Option.some_get _).symm
  have hrejects : Document.Rejects {} registerRequest :=
    (rejects_of_object htext).mpr (by decide +kernel)
  have h := update_rejected_preserves hrejects .idle zoomless
  exact ⟨hrejects, h.2.1, h.2.2.1, by decide +kernel⟩

/-! ### Sections of a text that passes -/

/-- The section of a text under a name, if the text passes. -/
def sectionOf? (name text : String) (d : Document) : Option Object :=
  (Object.ofText? text).bind fun candidate =>
    match (d.verify candidate).1 with
    | .ok () => Object.object? candidate name
    | .error _ => none

theorem sectionOf?_of_passed {d : Document} {text : String} {candidate : Object}
    (htext : Object.ofText? text = some candidate) (hverify : (d.verify candidate).1 = .ok ())
    (name : String) : d.sectionOf? name text = Object.object? candidate name := by
  simp only [sectionOf?, htext, Option.bind_some, hverify]

theorem sectionOf?_eq_some {d : Document} {name text : String} {settings : Object} :
    d.sectionOf? name text = some settings ↔
      ∃ candidate, Object.ofText? text = some candidate ∧ (d.verify candidate).1 = .ok () ∧
        Object.object? candidate name = some settings := by
  constructor
  · intro h
    obtain ⟨candidate, htext, hpassed⟩ := Option.bind_eq_some_iff.mp h
    cases hverify : (d.verify candidate).1 with
    | ok _ =>
        rw [hverify] at hpassed
        exact ⟨candidate, htext, hverify, hpassed⟩
    | error e =>
        rw [hverify] at hpassed
        cases hpassed
  · rintro ⟨candidate, htext, hverify, hsettings⟩
    rw [sectionOf?_of_passed htext hverify, hsettings]

/-- Without a section that passes, an update leaves the section alone, and whoever would have heard
of it. -/
theorem update_of_sectionOf?_none [Sensor S] [Hook H] {d : Document} {name text : String}
    (h : d.sectionOf? name text = none) (state : ProcessState) (k : Collaborators S H) :
    let u := d.update state text k
    (name = "common_settings" →
      u.document.common = d.common ∧ u.collaborators.sensor = k.sensor) ∧
    (name = "custom_settings" →
      u.document.custom = d.custom ∧ u.collaborators.hook = k.hook) := by
  intro u
  rcases d.rejects_or_passes text with hrejects | ⟨candidate, htext, hverify⟩
  · obtain ⟨request, reply, e, hupdate, -⟩ := update_of_rejects hrejects state k
    simp only [u, hupdate, and_self, implies_true]
  · rw [sectionOf?_of_passed htext hverify] at h
    obtain ⟨-, -, hcommon, hcustom, hsensor, hhook⟩ := update_attempts htext hverify state k
    constructor
    · rintro rfl
      rw [commonAttempt, h] at hcommon hsensor
      exact ⟨hcommon, hsensor⟩
    · rintro rfl
      rw [customAttempt, h] at hcustom hhook
      exact ⟨hcustom, hhook⟩

end Document

/-! ### Settled devices -/

namespace Device

variable {d : Device S H}

/-- The device plans to enter no other state than the one it is in. -/
def Settled (d : Device S H) : Prop := d.next = d.current

/-- A device that is not about to be destroyed plans nothing beyond the state it enters. -/
theorem settled_enter (h : d.next ≠ .destroying) (s : ProcessState) : (d.enter s).Settled := by
  unfold Settled enter
  rw [if_neg h]

theorem settled_transition (d : Device S H) : d.transition.Settled := by
  unfold transition
  split
  · assumption
  · unfold Settled enter
    split
    · rename_i hfinal
      exact hfinal.symm
    · rfl

theorem transition_of_settled (h : d.Settled) : d.transition = d := if_pos h

/-- Moving to another state neither gives notice nor takes it back. -/
theorem isRaised_move (s : ProcessState) (d : Device S H) :
    (d.plan s).transition.isRaised = d.isRaised := by
  unfold transition plan
  split <;> split <;> rfl

/-- The last state of all does not show in the document. -/
theorem document_destroy (h : d.Settled) :
    (d.plan .destroying).transition.document = d.document := by
  by_cases hfinal : d.next = .destroying
  · have hplan : d.plan .destroying = d := if_pos hfinal
    rw [hplan, transition_of_settled h]
  · have hplan : d.plan .destroying = { d with next := .destroying } := if_neg hfinal
    rw [hplan]
    unfold transition
    split <;> rfl

/-- An update that passes the device by in silence has failed. -/
theorem update_due [Sensor S] [Hook H] (text : String) (d : Device S H) :
    (d.update text).2.2.isRaised = true ∨ ∃ e, (d.update text).1 = .error e := by
  cases htext : Object.ofText? text with
  | none =>
      obtain ⟨e, hupdate⟩ := Document.update_of_not_object htext d.current d.collaborators
        d.document
      refine .inr ⟨e, ?_⟩
      simp only [update, hupdate]
  | some candidate =>
      exact .inl (Document.update_taken htext d.current d.collaborators d.document).2.2

end Device

end DeviceConfig
