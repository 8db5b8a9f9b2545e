/-
The ports and the sensor agree on what is enabled.

Which channels are enabled is kept in two places: in the ports of the document, and in the sensor,
as one property.  There is one step that writes this property, and it puts the ports in place only
if the sensor takes it.  No other step touches either.  So the two agree as soon as ports have been
set, and a refusal takes nothing away.

That something is enabled is seen to much earlier.  The check of a candidate looks at the ports
that the candidate makes of those there are, and when their turn comes they are still the same.
-/
import DeviceConfig.Proofs.Commitment

namespace DeviceConfig

variable {α S H : Type}

namespace Recorder

theorem write_eq [Sensor S] (r : Recorder S) (q : Property) :
    Sensor.write r q = ((Sensor.write r.sensor q).1,
      ⟨(Sensor.write r.sensor q).2, r.writes ++ [⟨q, (Sensor.write r.sensor q).1⟩]⟩) := rfl

/-- What the sensor holds of the channels that are enabled. -/
def channels? (r : Recorder Simulator) : Option Property := Sensor.read r .inputDataType

/-- No write since then has been about the channels, and the sensor holds what it held of them. -/
structure Beside (r r' : Recorder Simulator) : Prop where
  pushed : r.Pushes (fun q => q.key ≠ .inputDataType) r'
  channels : r'.channels? = r.channels?

namespace Beside

theorem of_eq {r r' : Recorder Simulator} (h : r' = r) : r.Beside r' :=
  ⟨.nothing h, congrArg channels? h⟩

theorem trans {r r' r'' : Recorder Simulator} (h : r.Beside r') (h' : r'.Beside r'') :
    r.Beside r'' :=
  ⟨h.pushed.trans h'.pushed, h'.channels.trans h.channels⟩

theorem write {q : Property} (hq : q.key ≠ .inputDataType) (r : Recorder Simulator) :
    r.Beside (Sensor.write r q).2 := by
  refine ⟨.write hq r, ?_⟩
  show (r.sensor.write q).2.read .inputDataType = r.sensor.read .inputDataType
  rcases r.sensor.write_cases q with ⟨rejection, h⟩ | h
  · rw [h]
  · rw [h, Simulator.read_accept, if_neg hq]

theorem course : Sensor.Course (fun q => q.key ≠ .inputDataType) Beside :=
  ⟨fun _ => of_eq rfl, trans, fun hq r => write hq r⟩

end Beside

end Recorder

/-- The picture section never writes the channels. -/
theorem Picture.apply_beside (candidate : Object) :
    Step.Leads (fun _ (c : Cycle (Recorder Simulator) H) _ c' => c.sensor.Beside c'.sensor)
      (apply candidate) := by
  rw [apply_turns]
  refine Recorder.Beside.course.steps.all fun f hf => ?_
  obtain ⟨t, -, rfl⟩ := List.mem_map.mp hf
  exact Recorder.Beside.course.turn fun q hq => hq ▸ t.key_inputDataType_ne.symm

/-! ### The ports -/

namespace Ports

/-- The ports have not been set, or at least one of them is enabled and the sensor holds which. -/
def Agree (p : Ports) (channels : Option Property) : Prop :=
  p = {} ∨ p.anyEnabled = true ∧ channels = some ⟨.inputDataType, p.channels⟩

/-- The ports are as they were, or something is enabled and the sensor holds what is.  After a
refusal they are as they were. -/
structure Turned (p : Ports) (r : Recorder Simulator) (p' : Ports) (r' : Recorder Simulator) :
    Prop where
  became : p' = p ∧ r'.channels? = r.channels? ∨
    p'.anyEnabled = true ∧ r'.channels? = some ⟨.inputDataType, p'.channels⟩
  refused : ∃ writes, r'.writes = r.writes ++ writes ∧ ∀ w ∈ writes,
    w.property.key = .inputDataType → ∀ rejection, w.outcome = .error rejection →
      p' = p ∧ r'.channels? = r.channels?

namespace Turned

variable {p p' : Ports} {r r' : Recorder Simulator}

theorem kept (h : r.Beside r') : Turned p r p r' := by
  obtain ⟨writes, hwrites, hkeys⟩ := h.pushed
  exact ⟨.inl ⟨rfl, h.channels⟩, writes, hwrites, fun w hw hkey => absurd hkey (hkeys w hw)⟩

/-- What has happened beside the ports before makes no difference. -/
theorem after {first : Recorder Simulator} (h : Turned p r p' r') (hfirst : first.Beside r) :
    Turned p first p' r' := by
  obtain ⟨hbecame, writes, hwrites, hrefused⟩ := h
  rw [hfirst.channels] at hbecame
  refine ⟨hbecame, ?_⟩
  obtain ⟨before, hbefore, hkeys⟩ := hfirst.pushed
  refine ⟨before ++ writes, ?_, fun w hw hkey rejection hrejection => ?_⟩
  · rw [hwrites, hbefore, List.append_assoc]
  · rcases List.mem_append.mp hw with hw | hw
    · exact absurd hkey (hkeys w hw)
    · rw [← hfirst.channels]
      exact hrefused w hw hkey rejection hrejection

theorem agree (h : Turned p r p' r') (hp : p.Agree r.channels?) : p'.Agree r'.channels? := by
  rcases h.became with ⟨hports, hchannels⟩ | htaken
  · rw [hports, hchannels]
    exact hp
  · exact .inr htaken

/-- Ports that have been set are not unset. -/
theorem unset (h : Turned p r p' r') (hp' : p' = {}) : p = {} := by
  rcases h.became with ⟨hports, -⟩ | ⟨henabled, -⟩
  · exact hports.symm.trans hp'
  · rw [hp'] at henabled
    cases henabled

end Turned

/-- A candidate that passes leaves something enabled, unless it changes nothing. -/
theorem anyEnabled_of_check {p : Ports} {candidate : Object} (h : p.check candidate = .ok ())
    (hchanged : p.merge candidate ≠ p) : (p.merge candidate).anyEnabled = true := by
  obtain ⟨-, henabled⟩ := Verdict.bind_eq_ok.mp h
  split at henabled
  · cases henabled
  · rename_i hcondition
    simpa [hchanged] using hcondition

/-- **Ports that pass are put in place if the sensor takes them, and else nothing happens.** -/
theorem apply_turned {p : Ports} {candidate : Object} (hcheck : p.check candidate = .ok ())
    (c : Cycle (Recorder Simulator) H) :
    let after := apply candidate p c
    Turned p c.sensor after.value after.cycle.sensor := by
  intro after
  simp only [after, apply_eq]
  by_cases hchanged : p.merge candidate = p
  · rw [if_pos hchanged]
    exact .kept (.of_eq rfl)
  rw [if_neg hchanged]
  let q : Property := ⟨.inputDataType, (p.merge candidate).channels⟩
  have henabled := anyEnabled_of_check hcheck hchanged
  rcases c.sensor.sensor.write_cases q with ⟨rejection, h⟩ | h
  · have hwrite : Sensor.write c.sensor q =
        (.error rejection, ⟨c.sensor.sensor, c.sensor.writes ++ [⟨q, .error rejection⟩]⟩) := by
      rw [Recorder.write_eq, show Sensor.write c.sensor.sensor q = _ from h]
    unfold Step.afterPush
    rw [Cycle.push_of_refused hwrite failure]
    exact ⟨.inl ⟨rfl, rfl⟩, _, rfl, fun _ _ _ _ _ => ⟨rfl, rfl⟩⟩
  · have hwrite : Sensor.write c.sensor q =
        (.ok (), ⟨c.sensor.sensor.accept q, c.sensor.writes ++ [⟨q, .ok ()⟩]⟩) := by
      rw [Recorder.write_eq, show Sensor.write c.sensor.sensor q = _ from h]
    have hread : (c.sensor.sensor.accept q).read .inputDataType = some q := by
      rw [Simulator.read_accept, if_pos rfl]
    unfold Step.afterPush
    rw [Cycle.push_of_taken hwrite failure]
    refine ⟨.inr ⟨henabled, hread⟩, _, rfl, fun w hw _ rejection hrejection => ?_⟩
    rw [List.mem_singleton.mp hw] at hrejection
    cases hrejection

end Ports

/-! ### The common section -/

namespace Common

/-- The ports are turned, since the picture is beside them. -/
theorem apply_turned {a : Common} {candidate : Object} (hcheck : a.check candidate = .ok ())
    (c : Cycle (Recorder Simulator) H) :
    let after := apply candidate a c
    Ports.Turned a.ports c.sensor after.value.ports after.cycle.sensor := by
  intro after
  obtain ⟨c', hbefore, hvalue, hafter⟩ := apply_parts candidate a c
  let between := ((a.pictureAttempt (admitted c.state candidate) c').map (·.cycle)).getD c'
  have hpicture : c'.sensor.Beside between.sensor := by
    simp only [between, pictureAttempt]
    cases Object.object? (admitted c.state candidate) "pq_settings" with
    | none => exact .of_eq rfl
    | some fragment => exact Picture.apply_beside fragment a.picture c'
  have hports : Ports.Turned a.ports between.sensor after.value.ports after.cycle.sensor := by
    simp only [after]
    rw [hvalue, hafter]
    simp only [portsAttempt]
    cases hfragment : Object.object? (admitted c.state candidate) "port_settings" with
    | none => exact .kept (.of_eq rfl)
    | some fragment =>
        have hpasses : a.ports.check fragment = .ok () :=
          (Check.of_object hcheck).2 _ _ _ (by simp) (object?_of_admitted hfragment)
        exact Ports.apply_turned hpasses between
  rw [← hbefore]
  exact hports.after hpicture

end Common

/-! ### Updates and runs -/

namespace Document

/-- An update turns the ports as one step of it does. -/
theorem update_turned [Hook H] (state : ProcessState) (text : String)
    (k : Collaborators (Recorder Simulator) H) (d : Document) :
    let u := d.update state text k
    Ports.Turned d.common.ports k.sensor u.document.common.ports u.collaborators.sensor := by
  refine update_sections (R := fun a r => Ports.Turned d.common.ports k.sensor a.ports r) state
    (.kept (.of_eq rfl)) fun candidate settings c _ hverify hsettings hsensor => ?_
  rw [← hsensor]
  exact Common.apply_turned (common_passes hverify hsettings) c

/-- What an update does with ports and sensor does not depend on a record. -/
theorem update_recorded [Hook H] (state : ProcessState) (text : String)
    (k : Collaborators Simulator H) (d : Document) :
    let u := d.update state text k
    let heard := d.update state text k.recorded
    heard.document = u.document ∧
      heard.collaborators.sensor.channels? = Sensor.read u.collaborators.sensor .inputDataType := by
  have hplain := update_plain state text k.recorded d
  exact ⟨congrArg Updated.document hplain,
    congrArg (fun u : Updated Simulator H => Sensor.read u.collaborators.sensor .inputDataType)
      hplain⟩

theorem occur_agree [Hook H] {d : Document} {k : Collaborators Simulator H}
    (h : d.common.ports.Agree (Sensor.read k.sensor .inputDataType)) (e : Event) :
    (occur d k e).1.common.ports.Agree
      (Sensor.read (occur d k e).2.sensor .inputDataType) := by
  cases e with
  | update state text =>
      obtain ⟨hdocument, hchannels⟩ := d.update_recorded state text k
      have hturned := update_turned state text k.recorded d
      show (d.update state text k).document.common.ports.Agree
        (Sensor.read (d.update state text k).collaborators.sensor .inputDataType)
      rw [← hdocument, ← hchannels]
      exact hturned.agree h
  | refuse key cause => exact h
  | allow key => exact h

theorem occurAll_agree [Hook H] (events : List Event) :
    ∀ {d : Document} {k : Collaborators Simulator H},
      d.common.ports.Agree (Sensor.read k.sensor .inputDataType) →
        (occurAll events d k).1.common.ports.Agree
          (Sensor.read (occurAll events d k).2.sensor .inputDataType) := by
  induction events with
  | nil => intro d k h; exact h
  | cons e rest ih => intro d k h; exact ih (occur_agree h e)

theorem occur_unset [Hook H] {d : Document} {k : Collaborators Simulator H} {e : Event}
    (h : (occur d k e).1.common.ports = {}) : d.common.ports = {} := by
  cases e with
  | update state text =>
      have hturned := update_turned state text k.recorded d
      refine hturned.unset ?_
      rw [(d.update_recorded state text k).1]
      exact h
  | refuse key cause => exact h
  | allow key => exact h

/-- Ports that are unset after some events have been unset before them. -/
theorem occurAll_unset [Hook H] (events : List Event) :
    ∀ {d : Document} {k : Collaborators Simulator H},
      (occurAll events d k).1.common.ports = {} → d.common.ports = {} := by
  induction events with
  | nil => intro d k h; exact h
  | cons e rest ih => intro d k h; exact occur_unset (ih h)

theorem occurAll_append [Hook H] (earlier later : List Event) (d : Document)
    (k : Collaborators Simulator H) :
    occurAll (earlier ++ later) d k =
      occurAll later (occurAll earlier d k).1 (occurAll earlier d k).2 := by
  unfold occurAll
  rw [List.foldl_append]

/-- **Something is enabled once ports have been set, and the sensor knows what.**  Whatever happens
to a document without ports and to its sensor, either the ports have never been set, or at least
one of them is enabled and the sensor holds the channels that are.  An update whose write of the
channels is refused leaves both as they were. -/
theorem run_routes [Hook H] {d : Document} (hd : d.common.ports = {})
    (k : Collaborators Simulator H) (events : List Event) :
    let after := occurAll events d k
    let ports := after.1.common.ports
    let held := Sensor.read after.2.sensor .inputDataType
    ((∀ earlier later, events = earlier ++ later →
        (occurAll earlier d k).1.common.ports = {}) ∨
      (ports.metadata.isEnabled = true ∨ ports.inputTensor.isEnabled = true) ∧
        held = some ⟨.inputDataType, ⟨ports.metadata.isEnabled, ports.inputTensor.isEnabled⟩⟩) ∧
    ∀ state text,
      let u := after.1.update state text after.2
      let heard := (after.1.update state text after.2.recorded).collaborators.sensor
      ∀ w ∈ heard.writes, w.property.key = .inputDataType →
        ∀ rejection, w.outcome = .error rejection →
          u.document.common.ports = ports ∧
            Sensor.read u.collaborators.sensor .inputDataType = held := by
  intro after ports held
  have hagree : ports.Agree held := occurAll_agree events (k := k) (.inl hd)
  refine ⟨?_, fun state text w hw hkey rejection hrejection => ?_⟩
  · rcases hagree with hunset | ⟨henabled, hheld⟩
    · refine .inl fun earlier later hevents => ?_
      have hafter := occurAll_append earlier later d k
      rw [← hevents] at hafter
      refine occurAll_unset later (k := (occurAll earlier d k).2) ?_
      rw [← hafter]
      exact hunset
    · exact .inr ⟨by simpa [Ports.anyEnabled] using henabled, hheld⟩
  · obtain ⟨hdocument, hchannels⟩ := after.1.update_recorded state text after.2
    obtain ⟨writes, hwrites, hrefused⟩ :=
      (update_turned state text after.2.recorded after.1).refused
    rw [show (after.1.update state text after.2.recorded).collaborators.sensor.writes = writes
      from hwrites] at hw
    obtain ⟨hports, hkept⟩ := hrefused w hw hkey rejection hrejection
    exact ⟨hdocument ▸ hports, hchannels ▸ hkept⟩

/-- A request to enable one of the ports. -/
def portRequest (name : String) : String :=
  (Json.ofMembers [("common_settings", .ofMembers [("port_settings",
    .ofMembers [(name, .ofMembers [("enabled", .bool true)])])])]).text

/-- A document whose metadata have been enabled, and a sensor that refuses to change that. -/
def routed : Document × Collaborators Simulator Indifferent :=
  occurAll [.update .idle (portRequest "metadata"), .refuse .inputDataType .notAvailable] {}
    ⟨Simulator.powerOn, Indifferent.mk⟩

/-- The input tensor is not enabled when the sensor refuses it, and the metadata stay enabled in
both places. -/
theorem run_routes_refused :
    let u := routed.1.update .idle (portRequest "input_tensor") routed.2
    let heard := (routed.1.update .idle (portRequest "input_tensor")
      routed.2.recorded).collaborators.sensor
    ({} : Document).common.ports = {} ∧ routed.1.common.ports.metadata.isEnabled = true ∧
      (∃ w ∈ heard.writes, w.property.key = .inputDataType ∧
        ∃ rejection, w.outcome = .error rejection) ∧
      u.document.common.ports = routed.1.common.ports ∧
      Sensor.read u.collaborators.sensor .inputDataType =
        some ⟨.inputDataType, ⟨true, false⟩⟩ := by
  have hmetadata : routed.1.common.ports.metadata.isEnabled = true := by decide +kernel
  have htensor : routed.1.common.ports.inputTensor.isEnabled = false := by decide +kernel
  have hwritten : (routed.1.update .idle (portRequest "input_tensor")
      routed.2.recorded).collaborators.sensor.writes.any (fun w =>
        w.property.key = .inputDataType && !w.outcome.isOk) = true := by
    decide +kernel
  obtain ⟨hheld, hrefused⟩ := run_routes (d := {}) rfl ⟨Simulator.powerOn, Indifferent.mk⟩
    [.update .idle (portRequest "metadata"), .refuse .inputDataType .notAvailable]
  have hrefused := hrefused .idle (portRequest "input_tensor")
  rw [← routed] at hheld hrefused
  obtain ⟨w, hw, hboth⟩ := List.any_eq_true.mp hwritten
  obtain ⟨hkey, herror⟩ := Bool.and_eq_true_iff.mp hboth
  obtain ⟨rejection, hrejection⟩ : ∃ rejection, w.outcome = .error rejection := by
    cases houtcome : w.outcome with
    | error rejection => exact ⟨rejection, rfl⟩
    | ok _ =>
        rw [houtcome] at herror
        cases herror
  obtain ⟨hports, hkept⟩ := hrefused w hw (of_decide_eq_true hkey) rejection hrejection
  refine ⟨rfl, hmetadata, ⟨w, hw, of_decide_eq_true hkey, rejection, hrejection⟩, hports,
    hkept.trans ?_⟩
  rcases hheld with hunset | ⟨-, hchannels⟩
  · have hnone := hunset _ [] (List.append_nil _).symm
    rw [← routed] at hnone
    rw [hnone] at hmetadata
    cases hmetadata
  · rwa [hmetadata, htensor] at hchannels

end Document

end DeviceConfig
