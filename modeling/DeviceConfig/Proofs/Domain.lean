/-
The values that a property may have.

The documentation gives each mode its numbers, and some fields of the structured properties their
limits.  The rules on a candidate are rules on the number as it is written, while the sensor gets
that number cut down to a word.  A limit that is a word itself survives the cut.  A number that is
excluded does not: `1.5` is not `1` before the cut and is `1` after it.  So an exposure mode is
what it may be if the texts spell whole numbers, and may be 1 or 2 otherwise.

Of a structured property the rules see the fields that a candidate has, and the others come from
what is known, or from what a first candidate is merged over.  All of these lie in the domain but
one: as long as no picture size is known, the scaling policy of a partial candidate is 0.
-/
import DeviceConfig.Proofs.Commitment
import DeviceConfig.Proofs.Merging

namespace DeviceConfig

variable {α S H K : Type}

/-! ### Domains -/

/-- A value is one that the documentation gives to the property. -/
def Key.Documented : (k : Key) → k.Value → Prop
  | .exposureMode, (w : UInt32) => w = 0 ∨ w = 3
  | .antiFlickerMode, (w : UInt32) | .imageRotation, (w : UInt32) => w ≤ 3
  | .whiteBalanceMode, (w : UInt32) => w ≤ 1
  | .cameraImageSize, a => a.scalingPolicy = 1 ∨ a.scalingPolicy = 2
  | .cameraImageFlip, a => a.horizontal ≤ 1 ∧ a.vertical ≤ 1
  | .autoExposureMetering, a => a.mode ≤ 1
  | .manualWhiteBalancePreset, a => a.kelvin ∈ WhiteBalancePreset.temperatures
  | _, _ => True

namespace Property

/-- The value is one that the documentation gives to the property. -/
def Documented (p : Property) : Prop := p.key.Documented p.value

instance : DecidablePred Documented
  | ⟨.exposureMode, w⟩ => inferInstanceAs (Decidable ((w : UInt32) = 0 ∨ (w : UInt32) = 3))
  | ⟨.antiFlickerMode, w⟩ | ⟨.imageRotation, w⟩ => inferInstanceAs (Decidable ((w : UInt32) ≤ 3))
  | ⟨.whiteBalanceMode, w⟩ => inferInstanceAs (Decidable ((w : UInt32) ≤ 1))
  | ⟨.cameraImageSize, a⟩ =>
    inferInstanceAs (Decidable (a.scalingPolicy = 1 ∨ a.scalingPolicy = 2))
  | ⟨.cameraImageFlip, a⟩ => inferInstanceAs (Decidable (a.horizontal ≤ 1 ∧ a.vertical ≤ 1))
  | ⟨.autoExposureMetering, a⟩ => inferInstanceAs (Decidable (a.mode ≤ 1))
  | ⟨.manualWhiteBalancePreset, a⟩ =>
    inferInstanceAs (Decidable (a.kelvin ∈ WhiteBalancePreset.temperatures))
  | ⟨.digitalZoom, _⟩ | ⟨.autoExposure, _⟩ | ⟨.manualExposure, _⟩ | ⟨.frameRate, _⟩
  | ⟨.imageCrop, _⟩ | ⟨.evCompensation, _⟩ | ⟨.inputDataType, _⟩ | ⟨.autoWhiteBalance, _⟩
  | ⟨.registerAccess, _⟩ => .isTrue trivial

end Property

theorem Scalar.rules_subset (s : Scalar) {r : Rule} (hr : r ∈ s.rules) : r ∈ Picture.rules := by
  refine List.mem_append_left _ (List.mem_append_left _ (List.mem_flatMap.mpr ⟨s, ?_, hr⟩))
  cases s <;> decide

/-- The property of a number that has passed is documented.  For an exposure mode the number has
to be whole. -/
theorem Scalar.documented_property {s : Scalar} {fragment : Object} {x : Double}
    (hrules : Rule.checkAll Picture.rules fragment = .ok ())
    (hx : Object.double? fragment s.field = some x)
    (hwhole : s = .exposureMode → x.isWhole = true) : (s.property x).Documented := by
  have hlimit : ∀ n, n < 4294967296 → Rule.atMost s.field (OfNat.ofNat n) ∈ s.rules →
      x.toWord.toNat ≤ n := fun n hn hr =>
    Rule.toNat_toWord_le hrules hx hn (s.rules_subset hr)
  cases s with
  | digitalZoom | evCompensation => trivial
  | antiFlickerMode | imageRotation =>
      exact UInt32.le_iff_toNat_le.mpr (hlimit 3 (by decide) (by simp [rules, Rule.range]))
  | whiteBalanceMode =>
      exact UInt32.le_iff_toNat_le.mpr (hlimit 1 (by decide) (by simp [rules, Rule.range]))
  | exposureMode =>
      have hthree : x.toWord.toNat ≤ 3 := hlimit 3 (by decide) (by simp [rules, Rule.range])
      have hexcluded : ∀ n, 0 < n → n < 4294967295 →
          Rule.differs exposureMode.field (OfNat.ofNat n) ∈ exposureMode.rules →
          x.toWord.toNat ≠ n := fun n hpos hn hr =>
        Rule.toNat_toWord_ne hrules hx hpos hn (rules_subset _ hr) (hwhole rfl)
      have hone := hexcluded 1 (by decide) (by decide) (by simp [rules])
      have htwo := hexcluded 2 (by decide) (by decide) (by simp [rules])
      show x.toWord = 0 ∨ x.toWord = 3
      simp only [← UInt32.toNat_inj, UInt32.reduceToNat]
      omega

/-! ### Scalars -/

namespace Document

/-- The exposure mode of a text, as the number that it spells. -/
def exposureMode? (text : String) : Option Double := do
  let fragment ← pictureOf? text
  Object.double? fragment Scalar.exposureMode.field

/-- **Every scalar that is written or held is documented, as long as exposure modes are whole.**
The document has been loaded from a sensor whose report on the scalar is documented, or that
reports nothing.  Then any updates follow, in any states, and the sensor may refuse any write. -/
theorem run_documents_scalar [Sensor S] [Hook H] (sensor : S) (hook : H) (d : Document)
    (s : Scalar) (inputs : List (ProcessState × String))
    (hsensor : ∀ q, Sensor.read sensor s.key = some q → q.Documented)
    (hwhole : s = .exposureMode → ∀ input ∈ inputs, ∀ x, exposureMode? input.2 = some x →
      x.isWhole = true) :
    let start : Collaborators (Recorder S) (HookRecorder H) := ⟨⟨sensor, []⟩, ⟨hook, []⟩⟩
    let run := updateAll inputs (d.load sensor) start
    (run.1, ⟨run.2.sensor.sensor, run.2.hook.hook⟩) =
        updateAll inputs (d.load sensor) ⟨sensor, hook⟩ ∧
      (∀ w ∈ run.2.sensor.writes, w.property.key = s.key → w.property.Documented) ∧
      ∀ q, run.1.common.picture.scalars.get? s = some q →
        q.Documented ∧ (q.key = s.key ∨ Sensor.read sensor s.key = some q) := by
  intro start run
  let V (held : Option Property) : Prop := ∀ q, held = some q →
    q.Documented ∧ (q.key = s.key ∨ Sensor.read sensor s.key = some q)
  have hasked : ∀ input ∈ inputs, ∀ p q, V ((Picture.Item.scalar s).value? p) →
      Asks (.scalar s) p input.2 q → V (some q) := by
    intro input hinput p q _ hasks
    obtain ⟨fragment, x, hfragment, hrules, hx, rfl⟩ := asks_scalar hasks
    intro q hq
    obtain rfl := Option.some.inj hq
    refine ⟨Scalar.documented_property hrules hx fun hs => ?_, .inl (s.key_property x)⟩
    subst hs
    exact hwhole rfl input hinput x (Option.bind_eq_some_iff.mpr ⟨fragment, hfragment, hx⟩)
  have hloaded : (Picture.Item.scalar s).Meets V (d.load sensor).common.picture start.sensor := by
    refine ⟨fun q hq => ?_, nofun⟩
    have hread : Sensor.read sensor s.key = some q :=
      (Picture.get?_load_scalars sensor d.common.picture s).symm.trans hq
    exact ⟨hsensor q hread, .inr hread⟩
  have hrun := updateAll_meets hasked hloaded
  refine ⟨updateAll_plain inputs _ start, fun w hw hkey => ?_, hrun.held⟩
  exact (hrun.pushed w hw hkey _ rfl).1

/-- A request for an exposure mode. -/
def exposureRequest (mode : Number) : String :=
  (Json.ofMembers [("common_settings", .ofMembers [("pq_settings", .ofMembers
    [("exposure_mode", .number mode)])])]).text

/-- What a sensor reports after power-on is documented. -/
theorem documented_powerOn (k : Key) (q : Property)
    (hq : Sensor.read Simulator.powerOn k = some q) : q.Documented := by
  have hall : (Sensor.read Simulator.powerOn k).all fun q => decide q.Documented := by
    cases k <;> decide +kernel
  rw [hq] at hall
  exact of_decide_eq_true hall

/-- What has become of a loaded document, and of its collaborators, after such a request. -/
def exposed (mode : Number) :
    Document × Collaborators (Recorder Simulator) (HookRecorder Indifferent) :=
  updateAll [(.idle, exposureRequest mode)] (load Simulator.powerOn {}) ⟨⟨.powerOn, []⟩, ⟨{}, []⟩⟩

/-- A whole exposure mode is written as it is. -/
theorem run_documents_scalar_whole :
    (∀ q, Sensor.read Simulator.powerOn Scalar.exposureMode.key = some q → q.Documented) ∧
      (exposureMode? (exposureRequest (.ofWord 3))).all Double.isWhole = true ∧
      (exposed (.ofWord 3)).2.sensor.writes.length = 1 ∧
      ∀ w ∈ (exposed (.ofWord 3)).2.sensor.writes,
        w.property.key = Scalar.exposureMode.key → w.property.Documented := by
  have hmode : (exposureMode? (exposureRequest (.ofWord 3))).all Double.isWhole = true := by
    decide +kernel
  have hwrite : (exposed (.ofWord 3)).2.sensor.writes.length = 1 := by decide +kernel
  refine ⟨documented_powerOn _, hmode, hwrite, ?_⟩
  unfold exposed
  have hwhole : ∀ input ∈ [(ProcessState.idle, exposureRequest (.ofWord 3))], ∀ x,
      exposureMode? input.2 = some x → x.isWhole = true := by
    intro input hinput x hx
    obtain rfl := List.mem_singleton.mp hinput
    rw [hx] at hmode
    exact hmode
  obtain ⟨-, hwrites, -⟩ := run_documents_scalar Simulator.powerOn Indifferent.mk {}
    .exposureMode _ (documented_powerOn _) fun _ => hwhole
  exact hwrites

/-- One and a half, which is an exposure mode between two that are excluded. -/
def oneAndAHalf : Number := .double ((Double.ofRatio? false 3 2).getD 0)

/-- An exposure mode that is not whole passes the rules, and what is written is one that they
exclude. -/
theorem exposureMode_of_fraction :
    (∀ k q, Sensor.read Simulator.powerOn k = some q → q.Documented) ∧
      ¬ ∀ mode, ∀ w ∈ (exposed mode).2.sensor.writes,
        w.property.key = Scalar.exposureMode.key → w.property.Documented := by
  refine ⟨documented_powerOn, fun hall => ?_⟩
  have hwrite : ∃ w ∈ (exposed oneAndAHalf).2.sensor.writes,
      w.property.key = Scalar.exposureMode.key ∧ ¬ w.property.Documented := by decide +kernel
  obtain ⟨w, hw, hkey, hnot⟩ := hwrite
  exact hnot (hall oneAndAHalf w hw hkey)

end Document

/-! ### Structured properties -/

namespace Field

variable {P : α → Prop} {fragment : Object} {a : α}

/-- A merge keeps what setting the field to a number of the candidate keeps. -/
theorem merge_keeps_of_set {f : Field α}
    (hset : ∀ x, Object.double? fragment f.name = some x → P (f.set x a)) (ha : P a) :
    P (merge fragment a f) := by
  unfold merge
  split
  · rename_i x hx
    exact hset x hx
  · exact ha

/-- A field within limits is only set to a word within these limits. -/
theorem merge_range_keeps {rules : List Rule} {name : String} {low high : Nat}
    {get : α → UInt32} {put : UInt32 → α → α}
    (hrules : Rule.checkAll rules fragment = .ok ())
    (hrange : ∀ r ∈ Rule.range name (OfNat.ofNat low) (OfNat.ofNat high), r ∈ rules)
    (hlow : low < 4294967296) (hhigh : high < 4294967296)
    (hput : ∀ w : UInt32, low ≤ w.toNat → w.toNat ≤ high → P (put w a)) (ha : P a) :
    P (merge fragment a (range name (OfNat.ofNat low) (OfNat.ofNat high) get put)) := by
  refine merge_keeps_of_set
    (fun x (hx : Object.double? fragment name = some x) => hput x.toWord ?_ ?_) ha
  · exact Rule.le_toNat_toWord hrules hx hlow (hrange _ (by simp [Rule.range]))
  · exact Rule.toNat_toWord_le hrules hx hhigh (hrange _ (by simp [Rule.range]))

end Field

/-- Every number stands for a preset that there is. -/
theorem WhiteBalancePreset.kelvin_ofIndex (index : UInt32) :
    (ofIndex index).kelvin ∈ temperatures := by
  unfold ofIndex
  cases h : temperatures[index.toNat]? with
  | none => exact List.mem_cons_self
  | some kelvin => exact List.mem_of_getElem? h

namespace Structured

/-- A field of a candidate that passes leaves a documented value documented. -/
theorem documented_merge {s : Structured} {fragment : Object}
    (hrules : Rule.checkAll s.description.rules fragment = .ok ()) {f : Field s.Value}
    (hf : f ∈ s.description.fields) {a : s.Value} (ha : s.key.Documented a) :
    s.key.Documented (Field.merge fragment a f) := by
  have hrange := s.description.rules_subset hf
  cases s with
  | cameraImageSize =>
      simp only [description, ImageSize.description, List.mem_cons, List.not_mem_nil,
        or_false] at hf
      rcases hf with rfl | rfl | rfl
      · exact Field.merge_keeps_of_set (fun _ _ => ha) ha
      · exact Field.merge_keeps_of_set (fun _ _ => ha) ha
      · refine Field.merge_range_keeps hrules hrange (by decide) (by decide) ?_ ha
        intro w (hlow : 1 ≤ w.toNat) (hhigh : w.toNat ≤ 2)
        show w = 1 ∨ w = 2
        simp only [← UInt32.toNat_inj, UInt32.reduceToNat]
        omega
  | cameraImageFlip =>
      simp only [description, ImageFlip.description, List.mem_cons, List.not_mem_nil,
        or_false] at hf
      rcases hf with rfl | rfl
      · refine Field.merge_range_keeps hrules hrange (by decide) (by decide) ?_ ha
        exact fun w _ hhigh => ⟨UInt32.le_iff_toNat_le.mpr hhigh, ha.2⟩
      · refine Field.merge_range_keeps hrules hrange (by decide) (by decide) ?_ ha
        exact fun w _ hhigh => ⟨ha.1, UInt32.le_iff_toNat_le.mpr hhigh⟩
  | autoExposureMetering =>
      simp only [description, Metering.description, List.mem_cons, List.not_mem_nil,
        or_false] at hf
      rcases hf with rfl | hf
      · refine Field.merge_range_keeps hrules hrange (by decide) (by decide) ?_ ha
        exact fun w _ hhigh => UInt32.le_iff_toNat_le.mpr hhigh
      · rcases hf with rfl | rfl | rfl | rfl
        all_goals exact Field.merge_keeps_of_set (fun _ _ => ha) ha
  | manualWhiteBalancePreset =>
      simp only [description, WhiteBalancePreset.description, List.mem_cons, List.not_mem_nil,
        or_false] at hf
      obtain rfl := hf
      exact Field.merge_keeps_of_set (fun _ _ => WhiteBalancePreset.kelvin_ofIndex _) ha
  | _ => trivial

/-- What a first candidate is merged over is documented, unless it is a picture size. -/
theorem documented_initial {s : Structured} (hs : s ≠ .cameraImageSize) :
    s.key.Documented s.description.initial := by
  cases s with
  | cameraImageSize => exact absurd rfl hs
  | cameraImageFlip => exact ⟨by decide, by decide⟩
  | autoExposureMetering => exact (by decide : (0 : UInt32) ≤ 1)
  | manualWhiteBalancePreset => exact List.mem_cons_self
  | _ => trivial

/-- A candidate that passes is documented once it is merged over what is known. -/
theorem documented_merged {s : Structured} {fragment : Object} {known : Option s.Value}
    (hrules : Rule.checkAll s.description.rules fragment = .ok ())
    (hknown : ∀ v, known = some v → s.key.Documented v)
    (hsize : s = .cameraImageSize → known.isSome = true) :
    s.key.Documented (s.description.merged fragment known) := by
  refine Description.merge_keeps (P := s.key.Documented)
    (fun f hf v hv => documented_merge hrules hf hv) ?_
  cases known with
  | some v => exact hknown v rfl
  | none => exact documented_initial fun hs => by cases hsize hs

end Structured

namespace Document

/-- What a text asks of a property that is held as documented is documented. -/
theorem documented_of_asks {s : Structured} {p : Picture} {text : String} {q : Property}
    (hknown : ∀ v, p.structured.get? s = some v → s.key.Documented v)
    (hsize : s = .cameraImageSize → (p.structured.get? s).isSome = true)
    (h : Asks (.structured s) p text q) : q.Documented := by
  obtain ⟨fragment, hcheck, rfl⟩ := asks_structured h
  obtain ⟨hrules, -⟩ := Verdict.bind_eq_ok.mp hcheck
  exact Structured.documented_merged hrules hknown hsize

/-- **Every structured property that is written or held is documented, as long as the sensor
reports a picture size.**  Of any other property the sensor may report nothing; what it reports is
documented.  This is so after any updates of a document, and whatever is done with a device, where
it concerns the writes of every configuration that may come next. -/
theorem run_documents_structured [Sensor S] [Hook H] [Sink K] (sensor : S) (hook : H) (sink : K)
    (s : Structured) (hsensor : ∀ v, s.load sensor = some v → s.key.Documented v)
    (hsize : s = .cameraImageSize → (s.load sensor).isSome = true) :
    (∀ (d : Document) (inputs : List (ProcessState × String)),
      let start : Collaborators (Recorder S) (HookRecorder H) := ⟨⟨sensor, []⟩, ⟨hook, []⟩⟩
      let run := updateAll inputs (d.load sensor) start
      (run.1, ⟨run.2.sensor.sensor, run.2.hook.hook⟩) =
          updateAll inputs (d.load sensor) ⟨sensor, hook⟩ ∧
        (∀ w ∈ run.2.sensor.writes, w.property.key = s.key → w.property.Documented) ∧
        ∀ v, run.1.common.picture.structured.get? s = some v → s.key.Documented v) ∧
    ∀ (initial : ProcessState) (topic : String) (logFilter : LogFilter)
      (actions : List Lifecycle.Action),
      let d := (Lifecycle.run actions
        (Lifecycle.launch initial sensor hook sink topic logFilter)).device
      (∀ v, d.document.common.picture.structured.get? s = some v → s.key.Documented v) ∧
        ∀ text,
          let u := d.document.update d.current text d.collaborators.recorded
          u.plain = d.document.update d.current text d.collaborators ∧
            ∀ w ∈ u.collaborators.sensor.writes,
              w.property.key = s.key → w.property.Documented := by
  let V (held : Option Property) : Prop :=
    (∀ q, held = some q → q.Documented) ∧ (s = .cameraImageSize → held.isSome = true)
  have hheld : ∀ p : Picture, V ((Picture.Item.structured s).value? p) ↔
      (∀ v, p.structured.get? s = some v → s.key.Documented v) ∧
        (s = .cameraImageSize → (p.structured.get? s).isSome = true) := by
    intro p
    have hsome : ((Picture.Item.structured s).value? p).isSome = (p.structured.get? s).isSome :=
      Option.isSome_map
    simp only [V, Picture.Item.forall_held, hsome]
    rfl
  have hasked : ∀ text p q, V ((Picture.Item.structured s).value? p) →
      Asks (.structured s) p text q → V (some q) := by
    intro text p q hp hasks
    obtain ⟨hknown, hsome⟩ := (hheld p).mp hp
    refine ⟨fun r hr => ?_, fun _ => rfl⟩
    obtain rfl := Option.some.inj hr
    exact documented_of_asks hknown hsome hasks
  have hloaded : ∀ d : Document,
      V ((Picture.Item.structured s).value? (d.load sensor).common.picture) := by
    intro d
    have hload : (d.load sensor).common.picture.structured.get? s = s.load sensor :=
      Picture.get?_load_structured sensor d.common.picture s
    rw [hheld, hload]
    exact ⟨hsensor, hsize⟩
  constructor
  · intro d inputs start run
    have hrun : (Picture.Item.structured s).Meets V run.1.common.picture run.2.sensor :=
      updateAll_meets (fun input _ => hasked input.2) ⟨hloaded d, nofun⟩
    refine ⟨updateAll_plain inputs _ start, fun w hw hkey => ?_, ((hheld _).mp hrun.held).1⟩
    exact (hrun.pushed w hw hkey).1 _ rfl
  · intro initial topic logFilter actions d
    have hd : V ((Picture.Item.structured s).value? d.document.common.picture) :=
      Lifecycle.run_held hasked actions (hloaded {})
    refine ⟨((hheld _).mp hd).1, fun text => ?_⟩
    let u := d.document.update d.current text d.collaborators.recorded
    have hupdate : (Picture.Item.structured s).Meets V u.document.common.picture
        u.collaborators.sensor :=
      update_meets (fun q => hasked text _ q hd) d.current ⟨hd, nofun⟩
    refine ⟨update_plain d.current text d.collaborators.recorded d.document, fun w hw hkey => ?_⟩
    exact (hupdate.pushed w hw hkey).1 _ rfl

/-- A request for a width that leaves the rest of the picture size open. -/
def sizeRequest : String :=
  (Json.ofMembers [("common_settings", .ofMembers [("pq_settings", .ofMembers
    [("camera_image_size", .ofMembers [("width", .word 640)])])])]).text

/-- What has become of a document that has been loaded from a sensor, and of its collaborators,
after such a request. -/
def resized (sensor : Simulator) :
    Document × Collaborators (Recorder Simulator) (HookRecorder Indifferent) :=
  updateAll [(.idle, sizeRequest)] (load sensor {}) ⟨⟨sensor, []⟩, ⟨{}, []⟩⟩

/-- With a size that is known, the scaling policy stays what it was. -/
theorem run_documents_structured_partial :
    (∀ v, Structured.cameraImageSize.load Simulator.powerOn = some v →
      Structured.cameraImageSize.key.Documented v) ∧
      (Structured.cameraImageSize.load Simulator.powerOn).isSome = true ∧
      (resized .powerOn).2.sensor.writes.length = 1 ∧
      ∀ w ∈ (resized .powerOn).2.sensor.writes,
        w.property.key = Structured.cameraImageSize.key → w.property.Documented := by
  have hsensor : ∀ v, Structured.cameraImageSize.load Simulator.powerOn = some v →
      Structured.cameraImageSize.key.Documented v := by
    intro v hv
    obtain rfl : (⟨2028, 1520, 1⟩ : ImageSize) = v := Option.some.inj hv
    exact .inl rfl
  have hwrite : (resized .powerOn).2.sensor.writes.length = 1 := by decide +kernel
  obtain ⟨hrun, -⟩ := run_documents_structured Simulator.powerOn Indifferent.mk
    (Lifecycle.Outage.mk 0) .cameraImageSize hsensor fun _ => rfl
  obtain ⟨-, hwrites, -⟩ := hrun {} [(.idle, sizeRequest)]
  refine ⟨hsensor, rfl, hwrite, ?_⟩
  unfold resized
  exact hwrites

/-- As long as no size is known, the rest of it is written as zeros, and zero is no scaling
policy. -/
theorem scalingPolicy_of_partial :
    (∀ s : Structured, s.load ({} : Simulator) = none) ∧
      ¬ ∀ w ∈ (resized {}).2.sensor.writes,
        w.property.key = Structured.cameraImageSize.key → w.property.Documented := by
  refine ⟨fun s => rfl, fun hall => ?_⟩
  have hwrite : ∃ w ∈ (resized {}).2.sensor.writes,
      w.property.key = Structured.cameraImageSize.key ∧ ¬ w.property.Documented := by
    decide +kernel
  obtain ⟨w, hw, hkey, hnot⟩ := hwrite
  exact hnot (hall w hw hkey)

end Document

end DeviceConfig
