/-
What an update leaves alone.

An update touches what its candidate names and nothing else.  The common section is laid over by a
candidate in several ways: a port and a structured property field by field, a list as one value, a
number by another.  `Json.Spares` says of two values, the one before and the one after, that they
agree along every path on which the candidate has nothing.  It is shown for the smallest values
first, and for an object it follows from its members, so every section is taken apart along its own
members and no way of laying it over needs to know of the others.

A structured property is an exception as long as nothing is known of it.  It is shown as an empty
object then, and shows all of its fields as soon as one of them has been set.
-/
import DeviceConfig.Proofs.Commitment
import DeviceConfig.Proofs.Fidelity
import DeviceConfig.Proofs.Merging
import DeviceConfig.Proofs.Parts
import DeviceConfig.Proofs.Paths
import DeviceConfig.Proofs.Turns
import DeviceConfig.Proofs.Working

namespace DeviceConfig

variable {β S H : Type}

/-! ### Values before and after -/

namespace Json

theorem ofMembers_eq (members : List (String × Json)) :
    ofMembers members = .object (Object.ofOptions (members.map fun m => (m.1, some m.2))) := by
  simp [ofMembers, Object.ofOptions]

theorem object?_single (x : Single) : (single x).object? = none := by
  unfold single
  cases x.toDouble? <;> rfl

/-- Along the paths of some kind, a value is what it was before wherever a candidate has nothing. -/
def Spares (P : List String → Prop) (given before after : Option Json) : Prop :=
  ∀ path, P path → given.bind (under? path) = none →
    after.bind (under? path) = before.bind (under? path)

namespace Spares

variable {P : List String → Prop} {given before after : Option Json}

theorem refl (v : Option Json) : Spares P given v v := fun _ _ _ => rfl

/-- Values without members only have to be the same if the candidate has none in their place. -/
theorem leaf (hsame : given = none → after = before)
    (hbefore : ∀ v, before = some v → v.object? = none)
    (hafter : ∀ v, after = some v → v.object? = none) : Spares P given before after := by
  intro path _ hnone
  cases path with
  | nil =>
      have hgiven : given = none := by
        cases given with
        | none => rfl
        | some v => cases hnone
      rw [hsame hgiven]
  | cons key rest =>
      have hinside : ∀ {u : Option Json}, (∀ v, u = some v → v.object? = none) →
          u.bind (under? (key :: rest)) = none := by
        intro u hu
        cases u with
        | none => rfl
        | some v => exact under?_of_object?_none (hu v rfl) key rest
      rw [hinside hbefore, hinside hafter]

theorem value {v v' : Json} (hsame : given = none → v' = v) (hv : v.object? = none)
    (hv' : v'.object? = none) : Spares P given (some v) (some v') :=
  leaf (fun hnone => congrArg some (hsame hnone)) (fun _ hw => Option.some.inj hw ▸ hv)
    fun _ hw => Option.some.inj hw ▸ hv'

/-- What a candidate is read for replaces what there was. -/
theorem read {fragment : Object} {name : String} {read : Json → Option β} {write : β → Json}
    (hwrite : ∀ b, (write b).object? = none) (old : Option β) :
    Spares P (Object.field? fragment name) (old.map write)
      ((((Object.field? fragment name).bind read).or old).map write) := by
  have hwritten : ∀ (u : Option β) (v : Json), u.map write = some v → v.object? = none := by
    intro u v hv
    obtain ⟨b, -, rfl⟩ := Option.map_eq_some_iff.mp hv
    exact hwrite b
  refine leaf (fun hnone => ?_) (hwritten old) (hwritten _)
  rw [hnone, Option.bind_none, Option.none_or]

/-- **An object is spared if its members are**, each under its own key. -/
theorem ofOptions (fragment : Object) (members : List (String × Option Json × Option Json))
    (hkeys : (members.map Prod.fst).Nodup)
    (h : ∀ m ∈ members,
      Spares (fun rest => P (m.1 :: rest)) (Object.field? fragment m.1) m.2.1 m.2.2) :
    Spares P (some (.object fragment))
      (some (.object (Object.ofOptions (members.map fun m => (m.1, m.2.1)))))
      (some (.object (Object.ofOptions (members.map fun m => (m.1, m.2.2))))) := by
  intro path hP hnone
  cases path with
  | nil => cases hnone
  | cons key rest =>
      rw [Option.bind_some, under?_object] at hnone ⊢
      rw [Option.bind_some, under?_object]
      by_cases hkey : key ∈ members.map Prod.fst
      · obtain ⟨m, hm, rfl⟩ := List.mem_map.mp hkey
        have hfound : ∀ side : Option Json × Option Json → Option Json,
            Object.field? (Object.ofOptions (members.map fun m => (m.1, side m.2))) m.1 =
              side m.2 := by
          refine fun side => Object.field?_ofOptions ?_ (List.mem_map.mpr ⟨m, hm, rfl⟩)
          rw [List.map_map]
          exact hkeys
        rw [hfound Prod.fst, hfound Prod.snd]
        exact h m hm rest hP hnone
      · have habsent : ∀ side : Option Json × Option Json → Option Json,
            Object.field? (Object.ofOptions (members.map fun m => (m.1, side m.2))) key = none := by
          refine fun side => Option.eq_none_iff_forall_ne_some.mpr fun v hv => hkey ?_
          obtain ⟨m, hm, heq⟩ :=
            List.mem_map.mp (Object.mem_of_mem_ofOptions (Object.mem_of_field? hv))
          exact List.mem_map.mpr ⟨m, hm, congrArg Prod.fst heq⟩
        rw [habsent Prod.fst, habsent Prod.snd]

theorem ofMembers (fragment : Object) (members : List (String × Json × Json))
    (hkeys : (members.map Prod.fst).Nodup)
    (h : ∀ m ∈ members, Spares (fun rest => P (m.1 :: rest)) (Object.field? fragment m.1)
      (some m.2.1) (some m.2.2)) :
    Spares P (some (.object fragment)) (some (.ofMembers (members.map fun m => (m.1, m.2.1))))
      (some (.ofMembers (members.map fun m => (m.1, m.2.2)))) := by
  have hoptions := ofOptions (P := P) fragment
    (members.map fun m => (m.1, some m.2.1, some m.2.2)) (by rw [List.map_map]; exact hkeys)
    (List.forall_mem_map.mpr h)
  simp only [List.map_map] at hoptions
  rw [ofMembers_eq, ofMembers_eq, List.map_map, List.map_map]
  exact hoptions

end Spares

end Json

open Json (Spares)

/-! ### The sections that the sensor does not know -/

section Parts

variable {P : List String → Prop} (fragment : Object)

theorem Inference.restated_spares (a : Inference) :
    Spares P (some (.object fragment)) (some a.toJson) (some (a.restated fragment).toJson) := by
  refine .ofMembers fragment [("number_of_iterations", .word a.iterations,
    .word (a.restated fragment).iterations)] (List.nodup_singleton _) ?_
  refine List.forall_mem_singleton.mpr (.value (fun hnone => ?_) rfl rfl)
  simp only [restated, Object.word?, hnone, Option.bind_none, Option.getD_none]

theorem Codec.restated_spares (a : Codec) :
    Spares P (some (.object fragment)) (some a.toJson) (some (a.restated fragment).toJson) :=
  .ofOptions fragment [("format", a.format.map .word, (a.restated fragment).format.map .word)]
    (List.nodup_singleton _) (List.forall_mem_singleton.mpr (.read (fun _ => rfl) a.format))

theorem Port.merge_spares (p : Port) :
    Spares P (some (.object fragment)) (some p.toJson) (some (p.merge fragment).toJson) := by
  refine .ofOptions fragment
    [("method", p.method.map .word, (p.merge fragment).method.map .word),
      ("storage_name", p.storageName.map .string, (p.merge fragment).storageName.map .string),
      ("endpoint", p.endpoint.map .string, (p.merge fragment).endpoint.map .string),
      ("path", p.path.map .string, (p.merge fragment).path.map .string),
      ("enabled", p.enabled.map .bool, (p.merge fragment).enabled.map .bool)]
    p.members_nodup ?_
  simp only [merge, Option.orElse_eq_orElse, Option.orElse_eq_or, List.forall_mem_cons,
    List.not_mem_nil, false_implies, implies_true, and_true]
  exact ⟨.read (fun _ => rfl) _, .read (fun _ => rfl) _, .read (fun _ => rfl) _,
    .read (fun _ => rfl) _, .read (fun _ => rfl) _⟩

theorem Ports.merge_spares (p : Ports) :
    Spares P (some (.object fragment)) (some p.toJson) (some (p.merge fragment).toJson) := by
  have hport : ∀ {P : List String → Prop} (name : String) (p : Port),
      Spares P (Object.field? fragment name) (some p.toJson)
        (some (mergeField fragment name p).toJson) := by
    intro P name p
    unfold mergeField
    cases hinner : Object.object? fragment name with
    | none => exact .refl _
    | some inner =>
        rw [Object.field?_of_object? hinner]
        exact p.merge_spares inner
  refine .ofMembers fragment
    [("metadata", p.metadata.toJson, (p.merge fragment).metadata.toJson),
      ("input_tensor", p.inputTensor.toJson, (p.merge fragment).inputTensor.toJson)]
    (show ["metadata", "input_tensor"].Nodup by decide) ?_
  simp only [List.forall_mem_cons, List.not_mem_nil, false_implies, implies_true, and_true]
  exact ⟨hport "metadata" p.metadata, hport "input_tensor" p.inputTensor⟩

theorem Ports.apply_spares [Sensor S] (p : Ports) (c : Cycle S H) :
    Spares P (some (.object fragment)) (some p.toJson)
      (some (Ports.apply fragment p c).value.toJson) := by
  rw [apply_eq]
  by_cases hsame : p.merge fragment = p
  · simp only [if_pos hsame]
    exact .refl _
  · simp only [if_neg hsame]
    rcases Step.afterPush_value ⟨.inputDataType, (p.merge fragment).channels⟩ failure
      (fun _ => false) (fun _ => p.merge fragment) p c with hold | hnew
    · rw [hold]
      exact .refl _
    · rw [hnew]
      exact p.merge_spares fragment

end Parts

/-! ### Structured properties -/

namespace Structured

/-- No field of a structured property shows an object. -/
theorem object?_toJson (s : Structured) :
    ∀ f ∈ s.description.fields, ∀ v, (f.toJson v).object? = none := by
  intro f hf v
  cases s.numeric f hf with
  | word _ _ _ _ _ _ _ _ => rfl
  | single _ get _ _ _ => exact Json.object?_single (get v)

/-- A value that is known is overlaid field by field. -/
theorem merge_spares {P : List String → Prop} (s : Structured) (fragment : Object) (v : s.Value) :
    Spares P (some (.object fragment)) (some (s.description.valueToJson v))
      (some (s.description.valueToJson (s.description.merge fragment v))) := by
  have hfields := Spares.ofMembers (P := P) fragment
    (s.description.fields.map fun f =>
      (f.name, f.toJson v, f.toJson (s.description.merge fragment v)))
    (by rw [List.map_map]; exact s.nodup_names) (List.forall_mem_map.mpr fun f hf => ?_)
  · rw [List.map_map, List.map_map] at hfields
    exact hfields
  · refine .value (fun hnone => ?_) (s.object?_toJson f hf _) (s.object?_toJson f hf _)
    refine s.independent.toJson_merge hf ?_ v
    rw [Object.double?, hnone, Option.bind_none]

/-- A push leaves what was known, or what has been pushed. -/
theorem apply_value [Sensor S] (s : Structured) (fragment : Object) (known : Option s.Value)
    (c : Cycle S H) :
    (s.apply fragment known c).value = known ∨
      (s.apply fragment known c).value = some (s.description.merged fragment known) :=
  Step.afterPush_value (s.property (s.description.merged fragment known)) s.description.failure
    (fun known' => known' == some (s.description.merged fragment known)) (fun _ => some _) known c

end Structured

/-! ### The picture -/

namespace Picture

/-- What is shown for a turn. -/
def Turn.toJson (p : Picture) : Turn → Json
  | item (.scalar s) => s.toJson p.scalars
  | item (.structured s) => s.description.toJson (p.structured.get? s)
  | registers => RegisterWrite.listToJson p.registers

theorem toJson_turns (p : Picture) :
    p.toJson = .ofMembers (Turn.all.map fun t => (t.field, t.toJson p)) := by
  unfold toJson Turn.all
  rw [List.map_append, List.map_cons, List.map_map, List.map_map]
  rfl

theorem Turn.toJson_of_held {t : Turn} {p p' : Picture} (h : t.held p' = t.held p) :
    t.toJson p' = t.toJson p := by
  rcases t with (s | s) | _
  · exact congrArg (fun q : Option Property => (q.map Scalar.valueToJson).getD .null) h
  · exact congrArg s.description.toJson (Item.get?_of_value? h)
  · exact congrArg RegisterWrite.listToJson h

theorem Scalar.object?_toJson (s : Scalar) (known : Scalars) :
    (s.toJson known).object? = none := by
  unfold Scalar.toJson
  cases known.get? s with
  | none => rfl
  | some q =>
      show (Scalar.valueToJson q).object? = none
      unfold Scalar.valueToJson
      split <;> first | rfl | exact Json.object?_single _

/-- Of a structured property, a candidate leaves what was known, or it has been merged. -/
theorem apply_structured [Sensor S] (fragment : Object) (s : Structured) :
    Step.Leads (fun p (_ : Cycle S H) p' _ =>
      p'.structured.get? s = p.structured.get? s ∨
        ∃ value, Object.object? fragment s.field = some value ∧ p'.structured.get? s =
          some (s.description.merged value (p.structured.get? s))) (apply fragment) := by
  rw [apply_turns]
  refine Step.Course.all ⟨fun _ _ => .inl rfl, ?_⟩ fun f hf => ?_
  · intro p p' p'' _ _ _ hfirst hsecond
    rcases hsecond with hkept | ⟨value, hvalue, hmerged⟩
    · rw [hkept]
      exact hfirst
    rcases hfirst with hkept | ⟨value', hvalue', hmerged'⟩
    · rw [hkept] at hmerged
      exact .inr ⟨value, hvalue, hmerged⟩
    · -- To merge the same candidate twice is to merge it once.
      obtain rfl : value = value' := Option.some.inj (hvalue.symm.trans hvalue')
      refine .inr ⟨value, hvalue, hmerged.trans ?_⟩
      rw [hmerged']
      exact congrArg some (s.independent.merge_merge value _)
  · obtain ⟨t, -, rfl⟩ := List.mem_map.mp hf
    intro p c
    by_cases ht : Turn.item (.structured s) = t
    · subst ht
      simp only [Turn.apply, applyStructured]
      cases hvalue : Object.object? fragment s.field with
      | none => exact .inl rfl
      | some value =>
          have happlied := s.apply_value value (p.structured.get? s) c
          have hslot : ∀ known, (p.structured.set s known).get? s = known :=
            fun known => Slots.get?_set_self p.structured s known
          rcases happlied with hold | hnew
          · exact .inl ((hslot _).trans hold)
          · exact .inr ⟨value, rfl, (hslot _).trans hnew⟩
    · exact .inl (Item.get?_of_value? (Turn.held_apply_of_ne ht p c))

/-- A structured property is spared once it is known. -/
theorem structured_spares [Sensor S] {P : List String → Prop} (fragment : Object) (s : Structured)
    (p : Picture) (c : Cycle S H)
    (hknown : ∀ field rest, P (field :: rest) → (p.structured.get? s).isSome) :
    let p' := (apply fragment p c).value
    Spares P (Object.field? fragment s.field)
      (some (s.description.toJson (p.structured.get? s)))
      (some (s.description.toJson (p'.structured.get? s))) := by
  intro p'
  rcases apply_structured fragment s p c with hkept | ⟨value, hvalue, hmerged⟩
  · rw [show p'.structured.get? s = _ from hkept]
    exact .refl _
  rw [show p'.structured.get? s = _ from hmerged, Object.field?_of_object? hvalue]
  cases hheld : p.structured.get? s with
  | some v => exact s.merge_spares value v
  | none =>
      intro path hpath hnone
      cases path with
      | nil => cases hnone
      | cons field rest =>
          have hsome := hknown field rest hpath
          rw [hheld] at hsome
          cases hsome

/-- **The picture is spared**, but for the fields of structured properties that are not known. -/
theorem apply_spares [Sensor S] {P : List String → Prop} (fragment : Object) (p : Picture)
    (c : Cycle S H)
    (hknown : ∀ (s : Structured) field rest, P (s.field :: field :: rest) →
      (p.structured.get? s).isSome) :
    Spares P (some (.object fragment)) (some p.toJson)
      (some (apply fragment p c).value.toJson) := by
  let p' := (apply fragment p c).value
  have hmembers := Spares.ofMembers (P := P) fragment
    (Turn.all.map fun t => (t.field, t.toJson p, t.toJson p'))
    (by rw [List.map_map]; exact (by decide : (Turn.all.map Turn.field).Nodup))
    (List.forall_mem_map.mpr fun t _ => ?_)
  · rw [List.map_map, List.map_map] at hmembers
    rw [toJson_turns, toJson_turns]
    exact hmembers
  rcases t with (s | s) | _
  · refine .value (fun hnone => ?_) (Scalar.object?_toJson s _) (Scalar.object?_toJson s _)
    exact Turn.toJson_of_held (t := .item (.scalar s)) (Turn.held_apply_of_absent hnone p c)
  · exact structured_spares fragment s p c (hknown s)
  · refine .value (fun hnone => ?_) rfl rfl
    exact Turn.toJson_of_held (t := .registers) (Turn.held_apply_of_absent hnone p c)

end Picture

/-! ### The common section -/

namespace Common

/-- The path leads into no structured property of which nothing is known. -/
def Known (a : Common) (path : List String) : Prop :=
  ∀ (s : Structured) field rest, path = "pq_settings" :: s.field :: field :: rest →
    (a.picture.structured.get? s).isSome

/-- A part that is not admitted is as it was, and one that is admitted is in the candidate. -/
theorem part_spares {P : List String → Prop} {given settings : Object} {name : String}
    {before after : Json}
    (hgiven : ∀ fragment, Object.object? given name = some fragment →
      Object.object? settings name = some fragment)
    (hnone : Object.object? given name = none → after = before)
    (hsome : ∀ fragment, Object.object? given name = some fragment →
      Spares P (some (.object fragment)) (some before) (some after)) :
    Spares P (Object.field? settings name) (some before) (some after) := by
  cases hfragment : Object.object? given name with
  | none =>
      rw [hnone hfragment]
      exact .refl _
  | some fragment =>
      rw [Object.field?_of_object? (hgiven fragment hfragment)]
      exact hsome fragment hfragment

theorem inferencePerMessage_spares {P : List String → Prop} (state : ProcessState)
    (settings : Object) (a : Common) :
    Spares P (Object.field? settings "number_of_inference_per_message")
      (a.inferencePerMessage.map .word)
      ((a.restated (admitted state settings)).inferencePerMessage.map .word) := by
  show Spares _ _ _ ((((Object.field? (admitted state settings)
    "number_of_inference_per_message").bind Json.word?).or a.inferencePerMessage).map .word)
  cases hv : Object.field? (admitted state settings) "number_of_inference_per_message" with
  | none => exact .refl _
  | some v =>
      rw [← field?_of_admitted hv]
      exact .read (fun _ => rfl) a.inferencePerMessage

/-- **The common section is spared.** -/
theorem apply_spares [Sensor S] (settings : Object) (a : Common) (c : Cycle S H) :
    Spares a.Known (some (.object settings)) (some a.toJson)
      (some (apply settings a c).value.toJson) := by
  obtain ⟨c', -, hvalue, -⟩ := apply_parts settings a c
  let given := admitted c.state settings
  let picture := a.pictureAttempt given c'
  let between := (picture.map (·.cycle)).getD c'
  let ports := a.portsAttempt given between
  let picture' := (picture.map (·.value)).getD a.picture
  let ports' := (ports.map (·.value)).getD a.ports
  have hgiven : ∀ name fragment, Object.object? given name = some fragment →
      Object.object? settings name = some fragment := fun _ _ => object?_of_admitted
  have hlevel : ∀ {P : List String → Prop}, Spares P (Object.field? settings "log_level")
      (some (.word a.logLevel)) (some (.word ((a.newLogLevel? settings).getD a.logLevel))) := by
    refine .value (fun hnone => ?_) rfl rfl
    simp only [newLogLevel?, Object.word?, hnone]
    rfl
  have hinference : ∀ {P : List String → Prop}, Spares P
      (Object.field? settings "inference_settings") (some a.inference.toJson)
      (some (a.restated given).inference.toJson) := by
    refine part_spares (hgiven _) (fun hnone => ?_) fun fragment h => ?_
    · simp only [restated, hnone, Option.elim_none]
    · simp only [restated, h, Option.elim_some]
      exact Inference.restated_spares fragment a.inference
  have hpicture : Spares (fun rest => a.Known ("pq_settings" :: rest))
      (Object.field? settings "pq_settings") (some a.picture.toJson) (some picture'.toJson) := by
    refine part_spares (hgiven _) (fun hnone => ?_) fun fragment h => ?_
    · simp only [picture', picture, pictureAttempt, hnone]
      rfl
    · simp only [picture', picture, pictureAttempt, h]
      refine Picture.apply_spares fragment a.picture c' fun s field rest hpath => ?_
      exact hpath s field rest rfl
  have hports : ∀ {P : List String → Prop}, Spares P (Object.field? settings "port_settings")
      (some a.ports.toJson) (some ports'.toJson) := by
    refine part_spares (hgiven _) (fun hnone => ?_) fun fragment h => ?_
    · simp only [ports', ports, portsAttempt, hnone]
      rfl
    · simp only [ports', ports, portsAttempt, h]
      exact Ports.apply_spares fragment a.ports between
  have hcodec : ∀ {P : List String → Prop}, Spares P (Object.field? settings "codec_settings")
      (some a.codec.toJson) (some (a.restated given).codec.toJson) := by
    refine part_spares (hgiven _) (fun hnone => ?_) fun fragment h => ?_
    · simp only [restated, hnone, Option.elim_none]
    · simp only [restated, h, Option.elim_some]
      exact Codec.restated_spares fragment a.codec
  rw [hvalue]
  refine .ofOptions settings
    [("process_state", some (.word a.state.toWord), some (.word a.state.toWord)),
      ("log_level", some (.word a.logLevel),
        some (.word ((a.newLogLevel? settings).getD a.logLevel))),
      ("number_of_inference_per_message", a.inferencePerMessage.map .word,
        (a.restated given).inferencePerMessage.map .word),
      ("inference_settings", some a.inference.toJson, some (a.restated given).inference.toJson),
      ("pq_settings", some a.picture.toJson, some picture'.toJson),
      ("port_settings", some a.ports.toJson, some ports'.toJson),
      ("codec_settings", some a.codec.toJson, some (a.restated given).codec.toJson)]
    a.members_nodup ?_
  simp only [List.forall_mem_cons, List.not_mem_nil, false_implies, implies_true, and_true]
  exact ⟨.refl _, hlevel, inferencePerMessage_spares c.state settings a, hinference, hpicture,
    hports, hcodec⟩

end Common

/-! ### What is written -/

namespace Picture

/-- **Nothing is written but properties whose fields the candidate has.** -/
theorem apply_pushes [Sensor S] (fragment : Object) :
    Step.Leads (fun _ (c : Cycle (Recorder S) H) _ c' => c.sensor.Pushes
      (fun q => ∃ t : Turn, q.key = t.key ∧ (Object.field? fragment t.field).isSome) c'.sensor)
      (apply fragment) := by
  rw [apply_turns]
  refine Step.Course.all ⟨fun _ _ => .nothing rfl, fun h h' => h.trans h'⟩ fun f hf => ?_
  obtain ⟨t, -, rfl⟩ := List.mem_map.mp hf
  intro p c
  cases hfield : Object.field? fragment t.field with
  | none =>
      rw [Turn.apply_of_absent hfield]
      exact .nothing rfl
  | some v =>
      refine (t.apply_pushes fragment p c).imp fun q hq => ⟨t, hq, ?_⟩
      rw [hfield]
      rfl

end Picture

/-- **The common section writes properties of the picture that the candidate names**, and the
channels of the ports if it names these. -/
theorem Common.apply_pushes [Sensor S] (settings : Object) (a : Common)
    (c : Cycle (Recorder S) H) :
    c.sensor.Pushes (fun q =>
      (∃ t : Picture.Turn, q.key = t.key ∧
        ((Json.object settings).under? ["pq_settings", t.field]).isSome) ∨
      q.key = .inputDataType ∧ ((Json.object settings).under? ["port_settings"]).isSome)
      (apply settings a c).cycle.sensor := by
  obtain ⟨c', hsensor, -, hcycle⟩ := apply_parts settings a c
  let given := admitted c.state settings
  let between := ((a.pictureAttempt given c').map (·.cycle)).getD c'
  rw [hcycle, ← hsensor]
  have hpicture : c'.sensor.Pushes (fun q => ∃ t : Picture.Turn, q.key = t.key ∧
      ((Json.object settings).under? ["pq_settings", t.field]).isSome) between.sensor := by
    simp only [between, pictureAttempt]
    cases hfragment : Object.object? given "pq_settings" with
    | none => exact .nothing rfl
    | some fragment =>
        refine (Picture.apply_pushes fragment a.picture c').imp fun q hq => ?_
        obtain ⟨t, hkey, hfield⟩ := hq
        refine ⟨t, hkey, ?_⟩
        obtain ⟨v, hv⟩ := Option.isSome_iff_exists.mp hfield
        rw [Json.under?_object, Object.field?_of_object? (object?_of_admitted hfragment),
          Option.bind_some, Json.under?_object, hv]
        rfl
  refine (hpicture.imp fun q => .inl).trans ?_
  simp only [portsAttempt]
  cases hfragment : Object.object? given "port_settings" with
  | none => exact .nothing rfl
  | some fragment =>
      refine (Ports.apply_pushes fragment a.ports between).imp fun q hq => .inr ⟨hq, ?_⟩
      rw [Json.under?_object, Object.field?_of_object? (object?_of_admitted hfragment)]
      rfl

/-! ### Updates -/

namespace Document

/-- What a text has at the end of a path, if it is an object. -/
def said? (text : String) (path : List String) : Option Json :=
  (Object.ofText? text).bind fun candidate => (Json.object candidate).under? path

theorem said?_of_object {text : String} {candidate : Object}
    (htext : Object.ofText? text = some candidate) (path : List String) :
    said? text path = (Json.object candidate).under? path := by
  rw [said?, htext, Option.bind_some]

theorem said?_req_id {text : String} {candidate : Object}
    (htext : Object.ofText? text = some candidate) :
    (said? text ["req_info", "req_id"]).bind Json.string? = idOf? candidate := by
  rw [said?_of_object htext, Json.under?_object]
  unfold idOf? Object.object?
  cases Object.field? candidate "req_info" with
  | none => rfl
  | some v =>
      cases v with
      | object info =>
          show ((Object.field? info "req_id").bind some).bind Json.string? =
            (Object.field? info "req_id").bind Json.string?
          cases Object.field? info "req_id" <;> rfl
      | _ => rfl

/-- **Every path that the text does not have shows what it showed**, but for the structured properties
of which nothing was known. -/
theorem update_under?_common [Sensor S] [Hook H] (state : ProcessState) {text : String}
    (k : Collaborators S H) {d : Document} {path : List String} (hknown : d.common.Known path)
    (hnone : said? text ("common_settings" :: path) = none) :
    (d.update state text k).document.toJson.under? ("common_settings" :: path) =
      d.toJson.under? ("common_settings" :: path) := by
  rw [under?_common, under?_common]
  cases hcommon : d.sectionOf? "common_settings" text with
  | none => rw [((update_of_sectionOf?_none hcommon state k).1 rfl).1]
  | some settings =>
      obtain ⟨candidate, htext, -, hsettings⟩ := sectionOf?_eq_some.mp hcommon
      obtain ⟨c, -, -, hvalue, -⟩ := update_common hcommon state k
      rw [said?_of_object htext, Json.under?_object, Object.field?_of_object? hsettings] at hnone
      rw [hvalue]
      exact Common.apply_spares settings d.common c path hknown hnone

theorem under?_state (d : Document) :
    d.toJson.under? ["common_settings", "process_state"] = some (.word d.common.state.toWord) := by
  rw [under?_common]
  exact Common.under?_member (List.mem_cons_self ..) []

theorem update_custom_of_unsaid [Sensor S] [Hook H] (state : ProcessState) {text : String}
    (k : Collaborators S H) (d : Document)
    (hnone : (said? text ["custom_settings"]).bind Json.object? = none) :
    (d.update state text k).document.custom = d.custom := by
  rcases update_custom state text k d with hsame | ⟨candidate, settings, -, -, htext, hfound, -⟩
  · exact hsame
  · rw [said?_of_object htext, Json.under?_object, Object.field?_of_object? hfound] at hnone
    cases hnone

theorem update_request_of_unsaid [Sensor S] [Hook H] (state : ProcessState) {text : String}
    (k : Collaborators S H) (d : Document)
    (hnone : (said? text ["req_info", "req_id"]).bind Json.string? = none) :
    (d.update state text k).document.request = d.request := by
  cases htext : Object.ofText? text with
  | none =>
      obtain ⟨e, hupdate⟩ := update_of_not_object htext state k d
      rw [hupdate]
  | some candidate =>
      obtain ⟨hid, -⟩ := update_taken htext state k d
      rw [said?_req_id htext] at hnone
      rw [idAfter, hnone] at hid
      exact congrArg Request.mk hid

/-- **Only properties are written that the text names.** -/
theorem update_writes_named [Sensor S] [Hook H] (state : ProcessState) (text : String)
    (k : Collaborators S H) (d : Document) :
    ∀ w ∈ (d.update state text k.recorded).collaborators.sensor.writes,
      (∃ t : Picture.Turn, w.property.key = t.key ∧
        (said? text ["common_settings", "pq_settings", t.field]).isSome) ∨
      w.property.key = .inputDataType ∧
        (said? text ["common_settings", "port_settings"]).isSome := by
  intro w hw
  cases hcommon : d.sectionOf? "common_settings" text with
  | none =>
      rw [((update_of_sectionOf?_none hcommon state k.recorded).1 rfl).2] at hw
      cases hw
  | some settings =>
      obtain ⟨candidate, htext, -, hsettings⟩ := sectionOf?_eq_some.mp hcommon
      obtain ⟨c, hfresh, -, -, hsensor⟩ := update_common hcommon state k.recorded
      obtain ⟨writes, hwrites, hnamed⟩ := Common.apply_pushes settings d.common c
      have hin : ∀ path, said? text ("common_settings" :: path) =
          (Json.object settings).under? path := by
        intro path
        rw [said?_of_object htext, Json.under?_object, Object.field?_of_object? hsettings]
        rfl
      rw [hsensor, hwrites, hfresh] at hw
      simp only [hin]
      exact hnamed w hw

/-- **An update touches what its text names and nothing else.**  In the common section, every path
that the text does not have shows what it showed before, unless it leads into a structured property
of which nothing was known; and the state is shown as before in any case.  The settings of the
application stay as they are unless the text has an object for them, and so does the id unless the
text has a string for it.  Of the picture, only properties are written that the text names, and
the channels of the ports are only written if it names the ports. -/
theorem update_frame [Sensor S] [Hook H] (state : ProcessState) (text : String)
    (k : Collaborators S H) (d : Document) :
    let u := d.update state text k
    let heard := (d.update state text k.recorded).collaborators
    (∀ path, d.common.Known path → said? text ("common_settings" :: path) = none →
      u.document.toJson.under? ("common_settings" :: path) =
        d.toJson.under? ("common_settings" :: path)) ∧
    u.document.toJson.under? ["common_settings", "process_state"] =
      d.toJson.under? ["common_settings", "process_state"] ∧
    ((said? text ["custom_settings"]).bind Json.object? = none → u.document.custom = d.custom) ∧
    ((said? text ["req_info", "req_id"]).bind Json.string? = none →
      u.document.request = d.request) ∧
    ∀ w ∈ heard.sensor.writes,
      (∃ t : Picture.Turn, w.property.key = t.key ∧
        (said? text ["common_settings", "pq_settings", t.field]).isSome) ∨
      w.property.key = .inputDataType ∧ (said? text ["common_settings", "port_settings"]).isSome := by
  intro u heard
  refine ⟨fun path hknown hnone => update_under?_common state k hknown hnone, ?_,
    update_custom_of_unsaid state k d, update_request_of_unsaid state k d,
    update_writes_named state text k d⟩
  rw [under?_state, under?_state, update_state]

end Document

end DeviceConfig
