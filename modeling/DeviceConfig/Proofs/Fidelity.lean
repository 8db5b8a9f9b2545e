/-
The text of a document says what the document says.

A document holds whatever its clients have sent: ids, messages, and settings for the application
that nobody looks at.  All of that has been read from a text, so it is nested at most 127 deep, and
in the document it stands where it stood in the text.  The stamp on the settings is the only thing
that is put in between, and it is shallow.  So what a document shows can always be read, and its
text is read back as the document itself.

The application's own account of its settings is left aside here: it does not come in a document,
and so it may be nested one level deeper.
-/
import DeviceConfig.Proofs.Merging
import DeviceConfig.Proofs.Reading

namespace DeviceConfig

variable {S H : Type}

/-! ### What is shown -/

namespace Json

@[simp] theorem legible_word (limit : Nat) (w : UInt32) : (word w).Legible limit :=
  legible_number limit _

theorem legible_empty (limit : Nat) : (ofMembers []).Legible (limit + 1) :=
  .ofMembers (List.forall_mem_nil _)

@[simp] theorem legible_single (limit : Nat) (x : Single) : (single x).Legible limit := by
  unfold single
  split <;> simp

end Json

theorem Request.legible (r : Request) : r.toJson.Legible 1 := .ofMembers (by simp)

theorem Record.legible (r : Record) : r.toJson.Legible 1 := .ofMembers (by simp)

theorem Inference.legible (a : Inference) : a.toJson.Legible 1 := .ofMembers (by simp)

theorem Codec.legible (a : Codec) : a.toJson.Legible 1 :=
  .ofOptions (by simp)

theorem Port.legible (p : Port) : p.toJson.Legible 1 :=
  .ofOptions (by simp [or_imp, forall_and])

theorem Ports.legible (p : Ports) : p.toJson.Legible 2 :=
  .ofMembers (by simp [Port.legible])

namespace Picture

theorem legible_scalar (s : Scalar) (known : Scalars) : (s.toJson known).Legible 0 := by
  unfold Scalar.toJson
  cases known.get? s with
  | none => exact Json.legible_null 0
  | some p =>
      show (Scalar.valueToJson p).Legible 0
      unfold Scalar.valueToJson
      split <;> simp

theorem legible_registers (writes : List RegisterWrite.Fitting) :
    (RegisterWrite.listToJson writes).Legible 2 := by
  refine Json.legible_array.mpr fun v hv => ?_
  obtain ⟨r, -, rfl⟩ := List.mem_map.mp hv
  exact .ofMembers (by simp)

theorem legible_field (s : Structured) :
    ∀ f ∈ s.description.fields, ∀ v, (f.toJson v).Legible 0 := by
  intro f hf v
  cases s.numeric f hf with
  | word _ _ get _ _ _ _ _ => exact Json.legible_word 0 (get v)
  | single _ get _ _ _ => exact Json.legible_single 0 (get v)

theorem legible_structured (s : Structured) (known : Option s.Value) :
    (s.description.toJson known).Legible 1 := by
  cases known with
  | none => exact Json.legible_empty _
  | some v =>
      refine .ofMembers fun m hm => ?_
      obtain ⟨f, hf, rfl⟩ := List.mem_map.mp hm
      exact legible_field s f hf v

theorem legible (p : Picture) : p.toJson.Legible 3 := by
  refine .ofMembers fun m hm => ?_
  rcases List.mem_append.mp hm with hscalar | hm
  · obtain ⟨s, -, rfl⟩ := List.mem_map.mp hscalar
    exact (legible_scalar s p.scalars).mono (by decide)
  rcases List.mem_cons.mp hm with rfl | hstructured
  · exact legible_registers p.registers
  · obtain ⟨s, -, rfl⟩ := List.mem_map.mp hstructured
    exact (legible_structured s _).mono (by decide)

end Picture

theorem Common.legible (a : Common) : a.toJson.Legible 4 := by
  have hinference : a.inference.toJson.Legible 3 := a.inference.legible.mono (by decide)
  have hports : a.ports.toJson.Legible 3 := a.ports.legible.mono (by decide)
  have hcodec : a.codec.toJson.Legible 3 := a.codec.legible.mono (by decide)
  exact .ofOptions (by simp [hinference, a.picture.legible, hports, hcodec])

/-! ### Settings of the application -/

/-- How deep the settings of the application may be nested.  The document is one level more. -/
def Custom.maxDepth : Nat := 126

namespace Custom

theorem legible_stamp {settings : Object} (h : (Json.object settings).Legible maxDepth)
    (r : Record) : (Json.object (stamp r settings)).Legible maxDepth :=
  h.insert (r.legible.mono (by decide))

/-- Settings are kept with one stamp or two, and can be read as before. -/
theorem legible_kept {settings : Object} (h : (Json.object settings).Legible maxDepth)
    (requestId : String) (v : Verdict) :
    (Json.object (kept requestId settings v)).Legible maxDepth := by
  cases v with
  | ok _ => exact legible_stamp h _
  | error e => exact legible_stamp (legible_stamp h _) _

end Custom

namespace Document

/-- An update keeps the settings of the application, or replaces them by those of its text. -/
theorem update_custom [Sensor S] [Hook H] (state : ProcessState) (text : String)
    (k : Collaborators S H) (d : Document) :
    let u := d.update state text k
    u.document.custom = d.custom ∨
      ∃ candidate settings requestId v, Object.ofText? text = some candidate ∧
        Object.object? candidate "custom_settings" = some settings ∧
        u.document.custom = ⟨Custom.kept requestId settings v⟩ := by
  intro u
  cases hcustom : d.sectionOf? "custom_settings" text with
  | none => exact .inl ((update_of_sectionOf?_none hcustom state k).2 rfl).1
  | some settings =>
      have hdelivers : u.document.custom =
          (Custom.deliver u.document.request.id settings d.custom k.hook).1 :=
        congrArg Prod.fst (update_delivers hcustom state k)
      unfold Custom.deliver at hdelivers
      split at hdelivers
      · exact .inl hdelivers
      · obtain ⟨candidate, htext, -, hsettings⟩ := sectionOf?_eq_some.mp hcustom
        exact .inr ⟨candidate, settings, _, _, htext, hsettings, hdelivers⟩

/-- An object in a text can be read one level down. -/
theorem legible_object? {text : String} {candidate fragment : Object} {name : String}
    (htext : Object.ofText? text = some candidate)
    (hfragment : Object.object? candidate name = some fragment) :
    (Json.object fragment).Legible Custom.maxDepth := by
  obtain ⟨v, hv, hobject⟩ := Option.bind_eq_some_iff.mp htext
  have hlegible := Json.legible_of_ofText? hv
  cases v with
  | object members =>
      obtain rfl := Option.some.inj hobject
      obtain ⟨w, hw, hfound⟩ := Option.bind_eq_some_iff.mp hfragment
      cases w with
      | object o =>
          obtain rfl := Option.some.inj hfound
          exact hlegible.field? hw
      | _ => cases hfound
  | _ => cases hobject

theorem legible_update [Sensor S] [Hook H] {d : Document}
    (hd : d.custom.toJson.Legible Custom.maxDepth) (state : ProcessState) (text : String)
    (k : Collaborators S H) :
    (d.update state text k).document.custom.toJson.Legible Custom.maxDepth := by
  rcases d.update_custom state text k with hkept | ⟨_, _, id, v, htext, hsettings, hnew⟩
  · rw [hkept]
    exact hd
  · rw [hnew]
    exact Custom.legible_kept (legible_object? htext hsettings) id v

/-! ### Documents that can be reached -/

/-- A document that comes about without the application's own account of its settings: by updates,
by reports of a sensor, by changes of state, and by taking what it asks for and giving notice. -/
inductive Reachable : Document → Prop
  | fresh : Reachable {}
  | update {S H : Type} [Sensor S] [Hook H] {d : Document} (hd : Reachable d)
      (state : ProcessState) (text : String) (k : Collaborators S H) :
      Reachable (d.update state text k).document
  | load {S : Type} [Sensor S] {d : Document} (hd : Reachable d) (sensor : S) :
      Reachable (d.load sensor)
  | setState {d : Document} (hd : Reachable d) (state : ProcessState) :
      Reachable { d with common := d.common.setState state }
  | attend {d : Document} (hd : Reachable d) (requests : Requests) (raised : Bool) :
      Reachable { d with requests, reply := { d.reply with raised } }

/-- The settings of the application can be read wherever a document shows them. -/
theorem Reachable.legible_custom {d : Document} (hd : d.Reachable) :
    d.custom.toJson.Legible Custom.maxDepth := by
  induction hd with
  | fresh => exact Json.legible_empty _
  | update _ state text k ih => exact legible_update ih state text k
  | load _ _ ih => exact ih
  | setState _ _ ih => exact ih
  | attend _ _ _ ih => exact ih

theorem Reachable.legible {d : Document} (hd : d.Reachable) :
    d.toJson.Legible Written.maxDepth := by
  have hrequest : d.request.toJson.Legible Custom.maxDepth := d.request.legible.mono (by decide)
  have hreply : d.reply.toJson.Legible Custom.maxDepth := d.reply.record.legible.mono (by decide)
  have hcommon : d.common.toJson.Legible Custom.maxDepth := d.common.legible.mono (by decide)
  refine .ofMembers fun m hm => ?_
  simp only [List.mem_cons, List.not_mem_nil, or_false] at hm
  rcases hm with rfl | rfl | rfl | rfl
  · exact hrequest
  · exact hreply
  · exact hcommon
  · exact hd.legible_custom

/-- **The text of a document is read back as the document.**  Every document that can be reached
has a text.  Reading it gives what the document shows, but for the doubles in it, each of which is
what comes back for it alone.  So it gives exactly what the document shows if and only if every
double that is shown comes back, and then it gives each of the four sections. -/
theorem serialize_faithful {d : Document} (hd : d.Reachable) :
    ∃ s, d.serialize = .ok s ∧ Json.ofText? s.text = d.toJson.reread? ∧
      (Json.ofText? s.text = some d.toJson ↔ ∀ x ∈ d.toJson.doubles, x.ReadsBack) ∧
      ((∀ x ∈ d.toJson.doubles, x.ReadsBack) →
        ∃ o, Object.ofText? s.text = some o ∧
          Object.field? o "req_info" = some d.request.toJson ∧
          Object.field? o "res_info" = some d.reply.toJson ∧
          Object.field? o "common_settings" = some d.common.toJson ∧
          Object.field? o "custom_settings" = some d.custom.toJson) := by
  let s : Serialized := ⟨d.toJson.tokens.flatten ++ ['\x00']⟩
  have hread : Json.ofText? s.text = d.toJson.reread? := by
    rw [Serialized.text_concat]
    exact Json.ofText?_text hd.legible
  refine ⟨s, Serialized.ofJson_eq d.toJson, hread, ?_, fun hdoubles => ?_⟩
  · rw [hread]
    exact d.toJson.reread?_eq_self
  · rw [← Json.reread?_eq_self, ← hread] at hdoubles
    refine ⟨Object.ofList d.members, ?_, ?_, ?_, ?_, ?_⟩
    · rw [Object.ofText?, hdoubles]
      rfl
    · exact Object.field?_ofList_of_mem d.members_nodup d.request_mem
    · exact Object.field?_ofList_of_mem d.members_nodup d.reply_mem
    · exact Object.field?_ofList_of_mem d.members_nodup d.common_mem
    · exact Object.field?_ofList_of_mem d.members_nodup d.custom_mem

/-- A request with settings of many kinds for the application. -/
def labelRequest : String :=
  (Json.ofMembers [("req_info", .ofMembers [("req_id", .string "9\"\u001f\n")]),
    ("custom_settings", .ofMembers
      [("label", .string "\\ \u00e9 \u2028"), ("gain", .number (.double 1)),
        ("limits", .array [.number (.integer (-0x8000000000000000) (by decide)),
          .number (.integer 0xffffffffffffffff (by decide)), .array [], .object []])])]).text

/-- A document that has been loaded, updated with them and set to run. -/
def labelled : Document :=
  let d := (({} : Document).load Simulator.powerOn |>.update .idle labelRequest obliging).document
  { d with common := d.common.setState .running }

/-- A document with strings, numbers and nested settings from a client is read back. -/
theorem serialize_faithful_labelled :
    labelled.Reachable ∧ Object.has labelled.custom.settings "limits" = true ∧
      (∀ x ∈ labelled.toJson.doubles, x.ReadsBack) ∧
      ∃ s, labelled.serialize = .ok s ∧ Json.ofText? s.text = some labelled.toJson := by
  have hreachable : labelled.Reachable :=
    .setState (.update (.load .fresh Simulator.powerOn) .idle labelRequest obliging) .running
  have hdoubles : ∀ x ∈ labelled.toJson.doubles, x.ReadsBack := by decide +kernel
  obtain ⟨s, hs, -, hiff, -⟩ := serialize_faithful hreachable
  exact ⟨hreachable, by decide +kernel, hdoubles, s, hs, hiff.mpr hdoubles⟩

end Document

end DeviceConfig
