/-
Bounds that stay in order.

An exposure has a least and a greatest time, and a metering window has its sides.  A request may
move one of two bounds, so whether they are in order is a question about the value that comes of
the request: the candidate merged over what is held.  The check asks it long before the value is
written, and the application merges once more.  Both merge the same candidate over the same value,
since nothing else of a request touches it, so what is written has been checked as a whole.

Nothing is asked of what is held before.  A value out of order could be put right by a request,
but none ever gets in.
-/
import DeviceConfig.Proofs.Commitment

namespace DeviceConfig

variable {S H : Type}

/-- The bounds of a value are in order.  Those of a metering window only matter in a mode that
meters there. -/
def Key.Ordered : (k : Key) → k.Value → Prop
  | .autoExposure, a => a.minTime ≤ a.maxTime
  | .autoExposureMetering, a => a.mode ≠ 0 → a.top < a.bottom ∧ a.left < a.right
  | _, _ => True

/-- The bounds of the value are in order. -/
def Property.Ordered (p : Property) : Prop := p.key.Ordered p.value

/-! ### One request -/

theorem Metering.ordered_of_checkWindow {a : Metering} (h : checkWindow a = .ok ())
    (hmode : a.mode ≠ 0) : a.top < a.bottom ∧ a.left < a.right := by
  unfold checkWindow at h
  rw [if_neg hmode] at h
  split at h
  · cases h
  rename_i htop
  split at h
  · cases h
  rename_i hleft
  exact ⟨UInt32.not_le.mp htop, UInt32.not_le.mp hleft⟩

/-- The conditions on a whole value put its bounds in order. -/
theorem Structured.ordered_of_checkValue {s : Structured} {a : s.Value}
    (h : s.description.checkValue a = .ok ()) : s.key.Ordered a := by
  cases s with
  | autoExposure =>
      by_cases horder : AutoExposure.minTime a ≤ AutoExposure.maxTime a
      · exact horder
      · cases h.symm.trans (if_neg horder)
  | autoExposureMetering => exact Metering.ordered_of_checkWindow h
  | _ => trivial

namespace Document

/-- What a request asks of a property is in order, whatever is held. -/
theorem ordered_of_asks {s : Structured} {p : Picture} {text : String} {q : Property}
    (h : Asks (.structured s) p text q) : q.Ordered := by
  obtain ⟨fragment, hcheck, rfl⟩ := asks_structured h
  obtain ⟨-, hrest⟩ := Verdict.bind_eq_ok.mp hcheck
  obtain ⟨-, hvalue⟩ := Verdict.bind_eq_ok.mp hrest
  exact Structured.ordered_of_checkValue hvalue

/-! ### Whole runs -/

/-- **The bounds of a value that is written or held are in order.**  The first document is fresh,
or has been loaded from a sensor whose report on the property is in order, if there is one.  Then
any updates follow, in any states, whatever the sensor refuses and the application answers. -/
theorem run_keeps_order [Sensor S] [Hook H] (sensor : S) (hook : H) (s : Structured)
    {first : Document}
    (hfirst : first = {} ∨ (∃ d : Document, first = d.load sensor) ∧
      ∀ v, s.load sensor = some v → s.key.Ordered v)
    (inputs : List (ProcessState × String)) :
    let start : Collaborators (Recorder S) (HookRecorder H) := ⟨⟨sensor, []⟩, ⟨hook, []⟩⟩
    let run := updateAll inputs first start
    (run.1, ⟨run.2.sensor.sensor, run.2.hook.hook⟩) =
        updateAll inputs first (⟨sensor, hook⟩ : Collaborators S H) ∧
      (∀ w ∈ run.2.sensor.writes, w.property.key = s.key → w.property.Ordered) ∧
      ∀ v, run.1.common.picture.structured.get? s = some v → s.key.Ordered v := by
  intro start run
  let V (held : Option Property) : Prop := ∀ q, held = some q → q.Ordered
  have hheld : ∀ v, first.common.picture.structured.get? s = some v → s.key.Ordered v := by
    rcases hfirst with rfl | ⟨⟨d, rfl⟩, hsensor⟩
    · exact nofun
    · intro v hv
      exact hsensor v ((Picture.get?_load_structured sensor d.common.picture s).symm.trans hv)
  have hasked : ∀ input ∈ inputs, ∀ p q, V ((Picture.Item.structured s).value? p) →
      Asks (.structured s) p input.2 q → V (some q) := by
    intro input _ p q _ hasks r hr
    obtain rfl := Option.some.inj hr
    exact ordered_of_asks hasks
  have hrun : (Picture.Item.structured s).Meets V run.1.common.picture run.2.sensor :=
    updateAll_meets hasked ⟨Picture.Item.forall_held.mpr hheld, nofun⟩
  refine ⟨updateAll_plain inputs first start, fun w hw hkey => ?_, ?_⟩
  · exact hrun.pushed w hw hkey _ rfl
  · exact Picture.Item.forall_held.mp hrun.held

/-- A request for a least exposure time that leaves the greatest open. -/
def leastTimeRequest (time : UInt32) : String :=
  (Json.ofMembers [("common_settings", .ofMembers [("pq_settings", .ofMembers
    [("auto_exposure", .ofMembers [("min_exposure_time", .word time)])])])]).text

/-- What has become of a loaded document, and of its collaborators, after a request for a least
time beyond the greatest one, and another for a time below it. -/
def retimed : Document × Collaborators (Recorder Simulator) (HookRecorder Indifferent) :=
  updateAll [(.idle, leastTimeRequest 30000), (.idle, leastTimeRequest 100)]
    (load Simulator.powerOn {}) ⟨⟨.powerOn, []⟩, ⟨{}, []⟩⟩

/-- Only the second of these is written. -/
theorem run_keeps_order_retimed :
    (∀ v, Structured.autoExposure.load Simulator.powerOn = some v →
      Structured.autoExposure.key.Ordered v) ∧
      retimed.2.sensor.writes.length = 1 ∧
      (∀ w ∈ retimed.2.sensor.writes,
        w.property.key = Structured.autoExposure.key → w.property.Ordered) ∧
      ∀ v, retimed.1.common.picture.structured.get? .autoExposure = some v →
        AutoExposure.minTime v ≤ AutoExposure.maxTime v := by
  have hsensor : ∀ v, Structured.autoExposure.load Simulator.powerOn = some v →
      Structured.autoExposure.key.Ordered v := by
    intro v hv
    obtain rfl : (⟨20000, 33, 24, 3⟩ : AutoExposure) = v := Option.some.inj hv
    exact (by decide : (33 : UInt32) ≤ 20000)
  have hwrite : retimed.2.sensor.writes.length = 1 := by decide +kernel
  obtain ⟨-, hwrites, hheld⟩ := run_keeps_order Simulator.powerOn Indifferent.mk .autoExposure
    (.inr ⟨⟨{}, rfl⟩, hsensor⟩)
    [(.idle, leastTimeRequest 30000), (.idle, leastTimeRequest 100)]
  refine ⟨hsensor, hwrite, ?_⟩
  unfold retimed
  exact ⟨hwrites, hheld⟩

end Document

end DeviceConfig
