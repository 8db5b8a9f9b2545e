/-
A document that is told what it shows.

What a part of the document shows can be sent back to it.  It may come back with another sign on a
zero, and otherwise as it was written.  Every part reads it as what it holds already, however it
is written: as a number that is cut down to a word, as a double that is rounded to a single, as
digits, as an index into a table, or not at all.
-/
import DeviceConfig.Common
import DeviceConfig.Proofs.Digits
import DeviceConfig.Proofs.Merging
import DeviceConfig.Proofs.Objects
import DeviceConfig.Proofs.Rounding

namespace DeviceConfig

/-! ### Single values -/

namespace Json

theorem eq_null_of_same {v : Json} (h : v.same .null = true) : v = .null := by
  cases v with
  | null => rfl
  | _ => cases h

theorem double?_of_same_word {v : Json} {w : UInt32} (h : v.same (.word w) = true) :
    v.double? = some (Double.ofInt w.toNat) := by
  cases v with
  | number n =>
      cases n with
      | integer m bounded =>
          have hm : m = w.toNat := by simpa [same, word, Number.ofWord, Number.same] using h
          rw [← hm]
          rfl
      | double x => cases h
  | _ => cases h

theorem word?_of_same {v : Json} {w : UInt32} (h : v.same (.word w) = true) :
    v.word? = some w := by
  rw [word?, double?_of_same_word h, Option.map_some, Double.toWord_ofInt]

theorem string?_of_same {v : Json} {s : String} (h : v.same (.string s) = true) :
    v.string? = some s := by
  cases v with
  | string t =>
      have ht : t = s := by simpa [same] using h
      rw [ht]
      rfl
  | _ => cases h

theorem bool?_of_same {v : Json} {b : Bool} (h : v.same (.bool b) = true) :
    v.bool? = some b := by
  cases v with
  | bool a =>
      have ha : a = b := by simpa [same] using h
      rw [ha]
      rfl
  | _ => cases h

/-- A single is read as what it was, unless it is not read at all. -/
theorem double?_of_same_single {v : Json} {y : Single} (h : v.same (.single y) = true) :
    v.double? = none ∨ ∃ x, v.double? = some x ∧ (y == Single.ofDouble x) = true := by
  unfold single at h
  cases hwide : y.toDouble? with
  | none =>
      rw [hwide] at h
      rw [eq_null_of_same h]
      exact .inl rfl
  | some wide =>
      rw [hwide] at h
      cases v with
      | number n =>
          cases n with
          | integer m bounded => cases h
          | double x => exact .inr ⟨x, rfl, Single.ofDouble_of_widened hwide h⟩
      | _ => cases h

end Json

/-- What is read from a member is what was written into it, if it was there. -/
theorem Object.bind_of_same {α : Type} {o p : Object} (h : Json.sameMembers o p = true)
    {key : String} {read : Json → Option α} {write : α → Json}
    (hread : ∀ {v x}, v.same (write x) = true → read v = some x) {known : Option α}
    (hknown : field? p key = known.map write) : (field? o key).bind read = known := by
  have hfield := Json.field?_of_sameMembers key h
  rw [hknown] at hfield
  cases known with
  | none =>
      have hnone : field? o key = none := hfield
      rw [hnone]
      rfl
  | some x =>
      obtain ⟨v, hv, hsame⟩ := hfield
      rw [hv]
      exact hread hsame

/-! ### Scalars -/

/-- What is shown of a scalar is read as the property that is held, unless it is not read. -/
theorem Scalar.double?_of_same {s : Scalar} {p : Property} (hp : p.key = s.key) {v : Json}
    (h : v.same (valueToJson p) = true) :
    v.double? = none ∨ ∃ x, v.double? = some x ∧ (p == s.property x) = true := by
  obtain ⟨k, value⟩ := p
  cases s with
  | digitalZoom | evCompensation =>
      subst hp
      refine (Json.double?_of_same_single h).imp id fun ⟨x, hx, hequal⟩ => ⟨x, hx, ?_⟩
      exact (Property.mk_beq_mk _ _ _).trans hequal
  | exposureMode | antiFlickerMode | whiteBalanceMode | imageRotation =>
      subst hp
      refine .inr ⟨_, Json.double?_of_same_word h, ?_⟩
      refine (Property.mk_beq_mk _ _ _).trans ?_
      rw [show (Double.ofInt _).toWord = value from Double.toWord_ofInt value]
      exact BEq.rfl (α := UInt32)

/-! ### Values made of fields -/

namespace Field

variable {α : Type}

theorem merge_word {fragment : Object} {name : String} {rules : List Rule} {get : α → UInt32}
    {put : UInt32 → α → α} {a : α} {v : Json} (hv : Object.field? fragment name = some v)
    (h : v.same (.word (get a)) = true) (b : α) :
    merge fragment b (word name rules get put) = put (get a) b := by
  have hdouble : Object.double? fragment name = some (Double.ofInt (get a).toNat) :=
    (Object.double?_of_field? hv).trans (Json.double?_of_same_word h)
  unfold merge
  rw [show (word name rules get put).name = name from rfl, hdouble]
  exact congrArg (put · b) (Double.toWord_ofInt (get a))

/-- Told what it shows of a value, the field leaves the value alone. -/
def Stable (f : Field α) (a : α) : Prop :=
  ∀ {fragment : Object} {v : Json}, Object.field? fragment f.name = some v →
    v.same (f.toJson a) = true → merge fragment a f = a

theorem stable_word {name : String} {rules : List Rule} {get : α → UInt32}
    {put : UInt32 → α → α} {a : α} (h : put (get a) a = a) :
    (word name rules get put).Stable a := fun hv hsame => (merge_word hv hsame a).trans h

theorem merge_single {fragment : Object} {name : String} {get : α → Single}
    {put : Single → α → α} {a : α} {v : Json} (hv : Object.field? fragment name = some v)
    (h : v.same (.single (get a)) = true) (b : α) :
    merge fragment b (single name get put) = b ∨
      ∃ x, (get a == x) = true ∧ merge fragment b (single name get put) = put x b := by
  unfold merge
  rw [show (single name get put).name = name from rfl, Object.double?_of_field? hv]
  rcases Json.double?_of_same_single h with hnone | ⟨x, hx, hequal⟩
  · rw [hnone]
    exact .inl rfl
  · rw [hx]
    exact .inr ⟨_, hequal, rfl⟩

end Field

namespace Description

variable {α : Type} {d : Description α}

/-- A fragment that is what is shown of a value has the same in each field. -/
theorem field?_of_same {a : α} (hnames : (d.fields.map Field.name).Nodup) {fragment : Object}
    (h : (Json.object fragment).same (d.valueToJson a) = true) {f : Field α}
    (hf : f ∈ d.fields) :
    ∃ v, Object.field? fragment f.name = some v ∧ v.same (f.toJson a) = true := by
  have hkeys : ((d.fields.map fun f => (f.name, f.toJson a)).map Prod.fst).Nodup := by
    rw [List.map_map]
    exact hnames
  exact Json.field?_of_same_ofMembers hkeys h (List.mem_map.mpr ⟨f, hf, rfl⟩)

/-- A value that no field changes is not changed by a merge. -/
theorem merge_eq_self {fragment : Object} {a : α}
    (h : ∀ f ∈ d.fields, Field.merge fragment a f = a) : d.merge fragment a = a :=
  merge_keeps (P := (· = a)) (fun f hf _ hb => hb ▸ h f hf) rfl

/-- A value with one field in single precision.  If no other field changes it, a merge puts a
number of the same value there, if any. -/
theorem merge_single (fragment : Object) (get : α → Single) (put : Single → α → α) (a : α)
    (hput : ∀ x y, put x (put y a) = put x a) (hget : put (get a) a = a)
    (h : ∀ f ∈ d.fields, ∀ x, Field.merge fragment (put x a) f = put x a ∨
      ∃ y, (get a == y) = true ∧ Field.merge fragment (put x a) f = put y (put x a)) :
    ∃ x, (x = get a ∨ (get a == x) = true) ∧ d.merge fragment a = put x a := by
  refine merge_keeps (P := fun b => ∃ x, (x = get a ∨ (get a == x) = true) ∧ b = put x a)
    (fun f hf b hb => ?_) ⟨get a, .inl rfl, hget.symm⟩
  obtain ⟨x, hx, rfl⟩ := hb
  rcases h f hf x with hkeep | ⟨y, hy, hmerge⟩
  · exact ⟨x, hx, hkeep⟩
  · exact ⟨y, .inr hy, hmerge.trans (hput y x)⟩

end Description

/-! ### Structured properties -/

/-- The temperature of a preset is one that presets have.  Of other properties nothing is asked. -/
def Structured.Listed : (s : Structured) → s.Value → Prop
  | .manualWhiteBalancePreset, a => a.kelvin ∈ WhiteBalancePreset.temperatures
  | _, _ => True

theorem Structured.nodup_names (s : Structured) : (s.description.fields.map Field.name).Nodup := by
  cases s <;> decide

/-- Merged with what it shows, a value stays equal to itself.  It stays what it is, if anything in
it is not equal to itself. -/
theorem Structured.merged_of_same (s : Structured) {a : s.Value} (hlisted : s.Listed a)
    {fragment : Object}
    (h : (Json.object fragment).same (s.description.toJson (some a)) = true) :
    s.description.merged fragment (some a) = a ∨
      (a == s.description.merged fragment (some a)) = true := by
  have hfield := fun f hf => Description.field?_of_same (f := f) s.nodup_names h hf
  cases s with
  | autoExposure =>
      obtain ⟨x, hx, hmerge⟩ := Description.merge_single (d := AutoExposure.description)
        fragment AutoExposure.maxGain (fun x b => { b with maxGain := x }) a
        (fun _ _ => rfl) rfl fun f hf x => by
          obtain ⟨v, hv, hsame⟩ := hfield f hf
          simp only [AutoExposure.description, List.mem_cons, List.not_mem_nil, or_false] at hf
          rcases hf with rfl | rfl | rfl | rfl
          · exact .inl (Field.merge_word hv hsame _)
          · exact .inl (Field.merge_word hv hsame _)
          · exact Field.merge_single hv hsame _
          · exact .inl (Field.merge_word hv hsame _)
      refine hx.imp (fun h => hmerge.trans (by rw [h])) fun h => ?_
      exact (congrArg (a == ·) hmerge).trans (AutoExposure.beq_of_maxGain h)
  | manualExposure =>
      obtain ⟨x, hx, hmerge⟩ := Description.merge_single (d := ManualExposure.description)
        fragment ManualExposure.gain (fun x b => { b with gain := x }) a
        (fun _ _ => rfl) rfl fun f hf x => by
          obtain ⟨v, hv, hsame⟩ := hfield f hf
          simp only [ManualExposure.description, List.mem_cons, List.not_mem_nil, or_false] at hf
          rcases hf with rfl | rfl
          · exact .inl (Field.merge_word hv hsame _)
          · exact Field.merge_single hv hsame _
      refine hx.imp (fun h => hmerge.trans (by rw [h])) fun h => ?_
      exact (congrArg (a == ·) hmerge).trans (ManualExposure.beq_of_gain h)
  | manualWhiteBalancePreset =>
      refine .inl (Description.merge_eq_self fun f hf => ?_)
      obtain ⟨v, hv, hsame⟩ := hfield f hf
      simp only [description, WhiteBalancePreset.description, List.mem_cons, List.not_mem_nil,
        or_false] at hf
      subst hf
      exact (Field.merge_word hv hsame a).trans (WhiteBalancePreset.ofIndex_index hlisted)
  | _ =>
      -- All fields of the others are words.
      have hstable : ∀ f ∈ (description _).fields, Field.Stable f a := by
        simp only [description, ImageSize.description, ImageFlip.description,
          FrameRate.description, ImageCrop.description, Metering.description,
          AutoWhiteBalance.description, List.forall_mem_cons, List.not_mem_nil, false_implies,
          implies_true, and_true]
        and_intros
        all_goals
          refine Field.stable_word ?_
          rfl
      refine .inl (Description.merge_eq_self fun f hf => ?_)
      obtain ⟨v, hv, hsame⟩ := hfield f hf
      exact hstable f hf hv hsame

/-! ### Registers -/

namespace RegisterWrite

/-- Data that fits its register is not cut down any further. -/
theorem truncate_of_fits {r : RegisterWrite} (h : r.Fits) : r.width.truncate r.data = r.data := by
  rw [← UInt64.toNat_inj, Width.toNat_truncate]
  exact Nat.mod_eq_of_lt h

/-- What a write shows describes the write. -/
theorem ofJson?_of_same {v : Json} {r : Fitting} (h : v.same (toJson r.val) = true) :
    ofJson? v = some r := by
  obtain ⟨entry, rfl, hmembers⟩ := Json.object_of_same h
  have hkeys : fields.Nodup := by decide
  have hbits : Object.word? entry "bit_length" = some r.val.width.index :=
    Object.bind_of_same hmembers Json.word?_of_same
      (Object.field?_ofList_of_mem hkeys (by simp))
  have hid : Object.word? entry "id" = some r.val.id :=
    Object.bind_of_same hmembers Json.word?_of_same
      (Object.field?_ofList_of_mem hkeys (by simp))
  have haddress : Object.string? entry "address" = some (Text.hex 16 r.val.address.toNat) :=
    Object.bind_of_same hmembers Json.string?_of_same
      (Object.field?_ofList_of_mem hkeys (by simp))
  have hdata : Object.string? entry "data" = some (toString r.val.data.toNat) :=
    Object.bind_of_same hmembers Json.string?_of_same
      (Object.field?_ofList_of_mem hkeys (by simp))
  simp only [ofJson?, Json.object?, Option.bind_some, ofEntry?, hbits, hid, haddress, hdata,
    Width.ofIndex?_index, address?_hex, data?_toString]
  refine congrArg some (Subtype.ext ?_)
  simp only [truncate_of_fits r.property]

theorem ofJson?_of_sameItems {writes : List Fitting} {entries : List Json}
    (h : Json.sameItems entries (writes.map fun r => toJson r.val) = true) :
    entries.map ofJson? = writes.map some := by
  rw [Json.sameItems_iff, List.forall₂_map_right_iff] at h
  induction h with
  | nil => rfl
  | cons hsame _ ih => rw [List.map_cons, List.map_cons, ofJson?_of_same hsame, ih]

end RegisterWrite

/-! ### Ports and codec -/

/-- What a port shows is put into another port field by field. -/
theorem Port.merge_shown {q : Port} {fragment : Object}
    (h : (Json.object fragment).same q.toJson = true) (p : Port) :
    p.merge fragment = ⟨q.method.or p.method, q.storageName.or p.storageName,
      q.endpoint.or p.endpoint, q.path.or p.path, q.enabled.or p.enabled⟩ := by
  have hkeys : ["method", "storage_name", "endpoint", "path", "enabled"].Nodup := by decide
  have hmethod : Object.word? fragment "method" = q.method :=
    Object.bind_of_same h Json.word?_of_same (Object.field?_ofOptions hkeys (by simp))
  have hstorage : Object.string? fragment "storage_name" = q.storageName :=
    Object.bind_of_same h Json.string?_of_same (Object.field?_ofOptions hkeys (by simp))
  have hendpoint : Object.string? fragment "endpoint" = q.endpoint :=
    Object.bind_of_same h Json.string?_of_same (Object.field?_ofOptions hkeys (by simp))
  have hpath : Object.string? fragment "path" = q.path :=
    Object.bind_of_same h Json.string?_of_same (Object.field?_ofOptions hkeys (by simp))
  have henabled : Object.bool? fragment "enabled" = q.enabled :=
    Object.bind_of_same h Json.bool?_of_same (Object.field?_ofOptions hkeys (by simp))
  simp only [merge, hmethod, hstorage, hendpoint, hpath, henabled, Option.orElse_eq_orElse,
    Option.orElse_eq_or]

theorem Port.merge_of_same {p : Port} {fragment : Object}
    (h : (Json.object fragment).same p.toJson = true) : p.merge fragment = p := by
  simp only [merge_shown h, Option.or_self]

theorem Ports.merge_of_same {p : Ports} {candidate : Object}
    (h : (Json.object candidate).same p.toJson = true) : p.merge candidate = p := by
  let members := [("metadata", p.metadata.toJson), ("input_tensor", p.inputTensor.toJson)]
  have hkeys : (members.map Prod.fst).Nodup := by
    show ["metadata", "input_tensor"].Nodup
    decide
  have hport : ∀ {name : String} {port : Port}, (name, port.toJson) ∈ members →
      mergeField candidate name port = port := by
    intro name port hmem
    obtain ⟨v, hv, hsame⟩ := Json.field?_of_same_ofMembers hkeys h hmem
    obtain ⟨fragment, rfl, hmembers⟩ := Json.object_of_same hsame
    unfold mergeField
    rw [Object.object?_of_field? hv]
    exact Port.merge_of_same hmembers
  have hmetadata : mergeField candidate "metadata" p.metadata = p.metadata :=
    hport (by simp [members])
  have hinput : mergeField candidate "input_tensor" p.inputTensor = p.inputTensor :=
    hport (by simp [members])
  simp only [merge, hmetadata, hinput]

theorem Codec.word?_of_same {a : Codec} {candidate : Object}
    (h : (Json.object candidate).same a.toJson = true) :
    Object.word? candidate "format" = a.format := by
  have hkeys : ["format"].Nodup := by decide
  exact Object.bind_of_same h Json.word?_of_same (Object.field?_ofOptions hkeys (by simp))

end DeviceConfig
