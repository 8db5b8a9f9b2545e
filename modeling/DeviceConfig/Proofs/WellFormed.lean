/-
Documents that accept what they show.

A document is well formed if every picture property is known, and every value is within the limits
that its rules set.  The limits are stated here for the values themselves: words within bounds,
numbers that are finite, a window that is not empty.  A check sees none of these.  It sees what is
shown of them, which may be an index in place of a temperature, a double in place of a single, or
digits in place of a word; and it accepts that, in every part of the document.

Of the ports, and of the other optional fields, nothing needs to be asked.  Any word can be shown
and is accepted again, and ports that do not change may all be disabled.
-/
import DeviceConfig.Proofs.Acceptance
import DeviceConfig.Proofs.Stream

namespace DeviceConfig

/-! ### Values within their limits -/

/-- The number is neither infinite nor a `nan`. -/
def Single.IsFinite : Single → Prop
  | .finite _ => True
  | _ => False

instance : DecidablePred Single.IsFinite
  | .finite _ => .isTrue trivial
  | .infinite _ | .nan => .isFalse id

/-- The value of a scalar is within its limits. -/
def Scalar.Proper : (s : Scalar) → s.key.Value → Prop
  | .digitalZoom, (x : Single) | .evCompensation, (x : Single) => x.IsFinite
  | .exposureMode, (w : UInt32) => w.toNat = 0 ∨ w.toNat = 3
  | .antiFlickerMode, (w : UInt32) | .imageRotation, (w : UInt32) => w.toNat ≤ 3
  | .whiteBalanceMode, (w : UInt32) => w.toNat ≤ 1

/-- The value of a structured property is within its limits. -/
def Structured.Proper : (s : Structured) → s.Value → Prop
  | .cameraImageSize, a => 1 ≤ a.scalingPolicy.toNat ∧ a.scalingPolicy.toNat ≤ 2
  | .cameraImageFlip, a => a.horizontal.toNat ≤ 1 ∧ a.vertical.toNat ≤ 1
  | .autoExposure, a => a.minTime ≤ a.maxTime ∧ a.maxGain.IsFinite
  | .manualExposure, a => a.gain.IsFinite
  | .autoExposureMetering, a =>
    a.mode.toNat ≤ 1 ∧ (a.mode ≠ 0 → a.top < a.bottom ∧ a.left < a.right)
  | .manualWhiteBalancePreset, a => a.kelvin ∈ WhiteBalancePreset.temperatures
  | .frameRate, _ | .imageCropping, _ | .autoWhiteBalance, _ => True

instance : (s : Structured) → DecidablePred s.Proper
  | .cameraImageSize => fun (a : ImageSize) =>
    inferInstanceAs (Decidable (1 ≤ a.scalingPolicy.toNat ∧ a.scalingPolicy.toNat ≤ 2))
  | .cameraImageFlip => fun (a : ImageFlip) =>
    inferInstanceAs (Decidable (a.horizontal.toNat ≤ 1 ∧ a.vertical.toNat ≤ 1))
  | .autoExposure => fun (a : AutoExposure) =>
    inferInstanceAs (Decidable (a.minTime ≤ a.maxTime ∧ a.maxGain.IsFinite))
  | .manualExposure => fun (a : ManualExposure) => inferInstanceAs (Decidable a.gain.IsFinite)
  | .autoExposureMetering => fun (a : Metering) =>
    inferInstanceAs (Decidable
      (a.mode.toNat ≤ 1 ∧ (a.mode ≠ 0 → a.top < a.bottom ∧ a.left < a.right)))
  | .manualWhiteBalancePreset => fun (a : WhiteBalancePreset) =>
    inferInstanceAs (Decidable (a.kelvin ∈ WhiteBalancePreset.temperatures))
  | .frameRate | .imageCropping | .autoWhiteBalance => fun _ => .isTrue trivial

/-- Every picture property is known, of its own kind and within its limits, and there are not too
many register writes. -/
structure Picture.WellFormed (p : Picture) : Prop where
  scalars : ∀ s, ∃ v, p.scalars.get? s = some ⟨s.key, v⟩ ∧ s.Proper v
  structured : ∀ s, ∃ v, p.structured.get? s = some v ∧ s.Proper v
  registers : p.registers.length ≤ RegisterWrite.maxEntries

/-- The picture is well formed, and the log level is one that there is. -/
structure Document.WellFormed (d : Document) : Prop where
  picture : d.common.picture.WellFormed
  logLevel : d.common.logLevel.toNat ≤ 5

/-! ### The picture section -/

theorem Single.admits_number {x : Single} (h : x.IsFinite) :
    (Constraint.kind .number).admits (.single x) = true := by
  cases x with
  | finite y => exact Constraint.admits_number_single (isSome_toDouble? y)
  | _ => cases h

/-- The rules on a scalar admit what is shown of it. -/
theorem Scalar.admit_shown {s : Scalar} {v : s.key.Value} (hv : s.Proper v) {p : Object}
    (h : ∀ w, (s.field, w) ∈ p → w = valueToJson ⟨s.key, v⟩) : Rule.Admit s.rules p := by
  cases s with
  | digitalZoom | evCompensation =>
      refine .cons (fun w hw => ?_) .nil
      rw [h w hw]
      exact Single.admits_number hv
  | exposureMode =>
      obtain ⟨hlimit, hone, htwo⟩ :
          UInt32.toNat v ≤ 3 ∧ UInt32.toNat v ≠ 1 ∧ UInt32.toNat v ≠ 2 := by
        rcases hv with hv | hv <;> rw [hv] <;> decide
      refine .append (.range (by decide) fun w hw => ⟨v, h w hw, Nat.zero_le _, hlimit⟩)
        (.cons (fun w hw => ?_) (.cons (fun w hw => ?_) .nil))
      · rw [h w hw]
        exact Constraint.admits_differs (n := 1) (by decide) hone
      · rw [h w hw]
        exact Constraint.admits_differs (n := 2) (by decide) htwo
  | antiFlickerMode | imageRotation | whiteBalanceMode =>
      exact .range (by decide) fun w hw => ⟨v, h w hw, Nat.zero_le _, hv⟩

namespace Field

variable {α : Type}

/-- The rules on the field admit what it shows of a value. -/
def Fits (f : Field α) (a : α) : Prop :=
  ∀ p : Object, (∀ v, (f.name, v) ∈ p → v = f.toJson a) → Rule.Admit f.rules p

theorem fits_natural (name : String) (get : α → UInt32) (put : UInt32 → α → α) (a : α) :
    (natural name get put).Fits a :=
  fun _ h => .natural fun v hv => ⟨get a, h v hv⟩

theorem fits_range (name : String) {low high : Nat} {get : α → UInt32} (put : UInt32 → α → α)
    {a : α} (hhigh : high < 4294967296) (hlow : low ≤ (get a).toNat)
    (hget : (get a).toNat ≤ high) :
    (range name (OfNat.ofNat low) (OfNat.ofNat high) get put).Fits a :=
  fun _ h => .range hhigh fun v hv => ⟨get a, h v hv, hlow, hget⟩

theorem fits_single (name : String) {get : α → Single} (put : Single → α → α) {a : α}
    (h : (get a).IsFinite) : (single name get put).Fits a := by
  refine fun _ hshown => .cons (fun v hv => ?_) .nil
  rw [hshown v hv]
  exact Single.admits_number h

end Field

/-- The rules of a description accept what is shown of a value that its fields fit. -/
theorem Description.checkAll_of_same {α : Type} {d : Description α} {a : α}
    (hnames : (d.fields.map Field.name).Nodup) (hfits : ∀ f ∈ d.fields, f.Fits a)
    {fragment : Object} (h : (Json.object fragment).same (d.valueToJson a) = true) :
    Rule.checkAll d.rules fragment = .ok () := by
  have hkeys : ((d.fields.map fun f => (f.name, f.toJson a)).map Prod.fst).Nodup := by
    rw [List.map_map]
    exact hnames
  refine Rule.checkAll_of_same h (.flatMap fun f hf => hfits f hf _ fun v hv => ?_)
  exact Object.eq_of_mem_ofList hv hkeys (List.mem_map.mpr ⟨f, hf, rfl⟩)

/-- The parts of a ratio are shown as words, which are whole. -/
theorem FrameRate.checkCandidate_of_same {a : FrameRate} {fragment : Object}
    (h : (Json.object fragment).same (description.valueToJson a) = true) :
    description.checkCandidate fragment = .ok () := by
  have hnames : (description.fields.map Field.name).Nodup := by decide
  have hwhole : ∀ f ∈ description.fields, ∀ label,
      checkWhole f.name label fragment = .ok () := by
    intro f hf label
    obtain ⟨v, hv, hsame⟩ := Description.field?_of_same hnames h hf
    have hword : ∃ w : UInt32, f.toJson a = .word w := by
      simp only [description, List.mem_cons, List.not_mem_nil, or_false] at hf
      rcases hf with rfl | rfl
      · exact ⟨a.num, rfl⟩
      · exact ⟨a.denom, rfl⟩
    obtain ⟨w, hw⟩ := hword
    rw [hw] at hsame
    have hdouble : Object.double? fragment f.name = some (Double.ofInt w.toNat) :=
      (Object.double?_of_field? hv).trans (Json.double?_of_same_word hsame)
    unfold checkWhole
    rw [hdouble]
    exact if_pos (Double.isWhole_ofInt w.toNat_lt)
  exact Verdict.bind_eq_ok.mpr ⟨hwhole _ List.mem_cons_self _,
    hwhole _ (List.mem_cons_of_mem _ List.mem_cons_self) _⟩

namespace Structured

/-- Every field of a value within its limits fits it. -/
theorem fits {s : Structured} {a : s.Value} (ha : s.Proper a) :
    ∀ f ∈ s.description.fields, f.Fits a := by
  cases s with
  | cameraImageSize =>
      simp only [description, ImageSize.description, List.forall_mem_cons]
      exact ⟨Field.fits_natural _ _ _ _, Field.fits_natural _ _ _ _,
        Field.fits_range _ _ (by decide) ha.1 ha.2, List.forall_mem_nil _⟩
  | cameraImageFlip =>
      simp only [description, ImageFlip.description, List.forall_mem_cons]
      exact ⟨Field.fits_range _ _ (by decide) (Nat.zero_le _) ha.1,
        Field.fits_range _ _ (by decide) (Nat.zero_le _) ha.2, List.forall_mem_nil _⟩
  | autoExposure =>
      simp only [description, AutoExposure.description, List.forall_mem_cons]
      exact ⟨Field.fits_natural _ _ _ _, Field.fits_natural _ _ _ _, Field.fits_single _ _ ha.2,
        Field.fits_natural _ _ _ _, List.forall_mem_nil _⟩
  | manualExposure =>
      simp only [description, ManualExposure.description, List.forall_mem_cons]
      exact ⟨Field.fits_natural _ _ _ _, Field.fits_single _ _ ha, List.forall_mem_nil _⟩
  | autoExposureMetering =>
      simp only [description, Metering.description, List.forall_mem_cons]
      exact ⟨Field.fits_range _ _ (by decide) (Nat.zero_le _) ha.1, Field.fits_natural _ _ _ _,
        Field.fits_natural _ _ _ _, Field.fits_natural _ _ _ _, Field.fits_natural _ _ _ _,
        List.forall_mem_nil _⟩
  | manualWhiteBalancePreset =>
      have hindex : a.index.toNat ≤ 3 := by
        obtain ⟨kelvin⟩ := a
        simp only [Proper, WhiteBalancePreset.temperatures, List.mem_cons, List.not_mem_nil,
          or_false] at ha
        rcases ha with rfl | rfl | rfl | rfl <;> decide
      simp only [description, WhiteBalancePreset.description, List.forall_mem_cons]
      exact ⟨Field.fits_range _ _ (by decide) (Nat.zero_le _) hindex, List.forall_mem_nil _⟩
  | _ =>
      -- Nothing is asked of the fields of the others but that they are words.
      simp only [description, FrameRate.description, ImageCrop.description,
        AutoWhiteBalance.description, List.forall_mem_cons, List.not_mem_nil, false_implies,
        implies_true, and_true]
      and_intros
      all_goals exact Field.fits_natural _ _ _ _

theorem listed_of_proper {s : Structured} {a : s.Value} (ha : s.Proper a) : s.Listed a := by
  cases s with
  | manualWhiteBalancePreset => exact ha
  | _ => trivial

/-- The conditions on the whole value hold of a value within its limits, and of one that is equal
to it. -/
theorem checkValue_of_proper {s : Structured} {a b : s.Value} (ha : s.Proper a)
    (h : b = a ∨ (a == b) = true) : s.description.checkValue b = .ok () := by
  cases s with
  | autoExposure =>
      have htimes : b.minTime = a.minTime ∧ b.maxTime = a.maxTime := by
        rcases h with rfl | h
        · exact ⟨rfl, rfl⟩
        · have hfields : (a.maxTime == b.maxTime && (a.minTime == b.minTime &&
              (a.maxGain == b.maxGain && a.convergenceSpeed == b.convergenceSpeed))) = true := h
          simp only [Bool.and_eq_true, beq_iff_eq] at hfields
          exact ⟨hfields.2.1.symm, hfields.1.symm⟩
      refine if_pos ?_
      rw [htimes.1, htimes.2]
      exact ha.1
  | autoExposureMetering =>
      obtain rfl : b = a := h.elim id fun h => (eq_of_beq (α := Metering) h).symm
      show Metering.checkWindow b = .ok ()
      unfold Metering.checkWindow
      by_cases hmode : b.mode = 0
      · rw [if_pos hmode]
      · obtain ⟨htop, hleft⟩ := ha.2 hmode
        rw [if_neg hmode, if_neg (UInt32.not_le.mpr htop), if_neg (UInt32.not_le.mpr hleft)]
  | _ => rfl

/-- **A structured property accepts what it shows of a value within its limits.** -/
theorem check_of_same {s : Structured} {a : s.Value} (ha : s.Proper a) {fragment : Object}
    (h : (Json.object fragment).same (s.description.toJson (some a)) = true) :
    s.description.check (some a) fragment = .ok () := by
  have hrules : Rule.checkAll s.description.rules fragment = .ok () :=
    Description.checkAll_of_same s.nodup_names (fits ha) h
  have hcandidate : s.description.checkCandidate fragment = .ok () := by
    cases s with
    | frameRate => exact FrameRate.checkCandidate_of_same h
    | _ => rfl
  have hvalue : s.description.checkValue (s.description.merged fragment (some a)) = .ok () :=
    checkValue_of_proper ha (merged_of_same s (listed_of_proper ha) h)
  exact Verdict.bind_eq_ok.mpr ⟨hrules, Verdict.bind_eq_ok.mpr ⟨hcandidate, hvalue⟩⟩

end Structured

/-! ### Register writes -/

namespace RegisterWrite

/-- The rules on an entry admit what is shown of a write. -/
theorem checkAll_of_same {r : RegisterWrite} {entry : Object}
    (h : (Json.object entry).same r.toJson = true) : Rule.checkAll rules entry = .ok () := by
  have hkeys : fields.Nodup := by decide
  have hbits : r.width.index.toNat ≤ 3 := by cases r.width <;> decide
  refine Rule.checkAll_of_same h (.append (.range (by decide) fun v hv => ?_)
    (.cons (fun v hv => ?_) (.cons (fun v hv => ?_) (.cons (fun v hv => ?_)
      (.kind (fun v hv => ?_) (.kind (fun v hv => ?_) .nil))))))
  · exact ⟨r.width.index, Object.eq_of_mem_ofList hv hkeys (by simp), Nat.zero_le _, hbits⟩
  · rw [Object.eq_of_mem_ofList hv hkeys (List.mem_cons_of_mem _ List.mem_cons_self)]
    exact Constraint.admits_atLeast (n := 0) (by decide) (Nat.zero_le _)
  · rw [Object.eq_of_mem_ofList hv hkeys (List.mem_cons_of_mem _ List.mem_cons_self)]
    exact Constraint.admits_atMost (n := 4294967295) (by decide) (Nat.le_of_lt_succ r.id.toNat_lt)
  · rw [Object.eq_of_mem_ofList hv hkeys (List.mem_cons_of_mem _ List.mem_cons_self)]
    rfl
  · rw [Object.eq_of_mem_ofList (w := .string (Text.hex 16 r.address.toNat)) hv hkeys (by simp)]
    rfl
  · rw [Object.eq_of_mem_ofList (w := .string (toString r.data.toNat)) hv hkeys (by simp)]
    rfl

/-- An entry that shows a write is accepted.  It is complete, because the write can be read
from it. -/
theorem checkEntry_of_same {v : Json} {r : Fitting} (h : v.same (toJson r.val) = true) :
    checkEntry v = .ok () := by
  have hread := ofJson?_of_same h
  obtain ⟨entry, rfl, hmembers⟩ := Json.object_of_same h
  simp only [ofJson?, Json.object?, Option.bind_some, ofEntry?, Option.bind_eq_bind,
    Option.bind_eq_some_iff] at hread
  obtain ⟨width, ⟨bits, hbits, -⟩, data, ⟨digits, hdigits, hdata⟩, id, hid, address,
    ⟨text, htext, haddress⟩, -⟩ := hread
  have hhas : ∀ {α : Type} {read : Json → Option α} {name : String} {x : α},
      (Object.field? entry name).bind read = some x → Object.has entry name = true := by
    intro α read name x hx
    obtain ⟨w, hw, -⟩ := Option.bind_eq_some_iff.mp hx
    rw [Object.has, hw]
    rfl
  have hcomplete : fields.any (fun name => !Object.has entry name) = false := by
    simp [fields, hhas hbits, hhas hid, hhas htext, hhas hdigits]
  refine Verdict.bind_eq_ok.mpr ⟨checkAll_of_same hmembers, ?_⟩
  simp [hcomplete, htext, haddress, hdigits, hdata]

end RegisterWrite

/-! ### The picture section -/

namespace Picture

variable {p : Picture}

theorem WellFormed.settled (hp : p.WellFormed) : p.Settled where
  ownKind s q hq := by
    obtain ⟨v, hv, -⟩ := hp.scalars s
    rw [← Option.some.inj (hv.symm.trans hq)]
  known s := by
    obtain ⟨v, hv, -⟩ := hp.structured s
    rw [hv]
    rfl
  listed s v hv := by
    obtain ⟨w, hw, hproper⟩ := hp.structured s
    rw [← Option.some.inj (hw.symm.trans hv)]
    exact Structured.listed_of_proper hproper

/-- The rules of the section admit what a well-formed one shows. -/
theorem admit_shown (hp : p.WellFormed) : Rule.Admit rules (Object.ofList p.members) := by
  have hshown : ∀ {name : String} {w : Json}, (name, w) ∈ p.members →
      ∀ v, (name, v) ∈ Object.ofList p.members → v = w :=
    fun hw _ hv => Object.eq_of_mem_ofList hv p.members_nodup hw
  refine .append (.append (.flatMap fun s _ => ?_) ?_) (.kind (fun v hv => ?_) .nil)
  · obtain ⟨v, hv, hproper⟩ := hp.scalars s
    refine Scalar.admit_shown hproper fun w hw => (hshown (p.scalar_mem s) w hw).trans ?_
    rw [Scalar.toJson, hv]
    rfl
  · intro r hr v hv
    obtain ⟨s, -, rfl⟩ := List.mem_map.mp hr
    rw [hshown (p.structured_mem s) v hv]
    cases p.structured.get? s <;> rfl
  · rw [hshown p.registers_mem v hv]
    rfl

/-- **A well-formed picture section accepts what it shows.** -/
theorem check_of_same (hp : p.WellFormed) {candidate : Object}
    (h : (Json.object candidate).same p.toJson = true) : p.check candidate = .ok () := by
  refine Verdict.bind_eq_ok.mpr ⟨Check.object_of_same h (admit_shown hp) ?_, ?_⟩
  · intro part hpart v hv fragment hfragment
    obtain ⟨s, -, rfl⟩ := List.mem_map.mp hpart
    obtain ⟨a, ha, hproper⟩ := hp.structured s
    rw [Object.eq_of_mem_ofList hv p.members_nodup (p.structured_mem s), ha] at hfragment
    show s.description.check (p.structured.get? s) fragment = .ok ()
    rw [ha]
    exact Structured.check_of_same hproper hfragment
  · cases hentries : Object.array? candidate "register_access" with
    | none => rfl
    | some entries =>
        have hitems := entries_of_same h hentries
        have hlength : entries.length = p.registers.length := by
          have hread := congrArg List.length (RegisterWrite.ofJson?_of_sameItems hitems)
          simpa using hread
        have hfew : ¬ RegisterWrite.maxEntries < entries.length := by
          rw [hlength]
          exact Nat.not_lt.mpr hp.registers
        show RegisterWrite.check entries = .ok ()
        unfold RegisterWrite.check
        rw [if_neg hfew]
        refine Verdict.forM_eq_ok.mpr fun v hv => ?_
        obtain ⟨w, hw, hsame⟩ := Json.mem_of_sameItems hitems hv
        obtain ⟨r, -, rfl⟩ := List.mem_map.mp hw
        exact RegisterWrite.checkEntry_of_same hsame

end Picture

/-! ### The other sections -/

namespace Port

/-- The members of a port as it is shown. -/
def members (p : Port) : List (String × Option Json) :=
  [("method", p.method.map .word), ("storage_name", p.storageName.map .string),
    ("endpoint", p.endpoint.map .string), ("path", p.path.map .string),
    ("enabled", p.enabled.map .bool)]

theorem members_nodup (p : Port) : (p.members.map Prod.fst).Nodup := by
  show ["method", "storage_name", "endpoint", "path", "enabled"].Nodup
  decide

theorem check_of_same {p : Port} {fragment : Object}
    (h : (Json.object fragment).same p.toJson = true) : Port.check fragment = .ok () := by
  have hmethod : ("method", p.method.map .word) ∈ p.members := by simp [members]
  have hstorage : ("storage_name", p.storageName.map .string) ∈ p.members := by simp [members]
  have hendpoint : ("endpoint", p.endpoint.map .string) ∈ p.members := by simp [members]
  have hpath : ("path", p.path.map .string) ∈ p.members := by simp [members]
  have henabled : ("enabled", p.enabled.map .bool) ∈ p.members := by simp [members]
  have hnames := p.members_nodup
  refine Check.object_of_same h (.append (.natural fun v hv => ?_)
    (.optional hnames hstorage (fun _ => rfl) (.optional hnames hendpoint (fun _ => rfl)
      (.optional hnames hpath (fun _ => rfl) (.optional hnames henabled (fun _ => rfl)
        .nil))))) nofun
  obtain ⟨w, -, hw⟩ := Option.map_eq_some_iff.mp (Object.eq_of_mem_ofOptions hv hnames hmethod)
  exact ⟨w, hw.symm⟩

end Port

/-- Ports that are told what they are do not change, so they need not be enabled. -/
theorem Ports.check_of_same {p : Ports} {candidate : Object}
    (h : (Json.object candidate).same p.toJson = true) : p.check candidate = .ok () := by
  have hkeys : ["metadata", "input_tensor"].Nodup := by decide
  refine Verdict.bind_eq_ok.mpr ⟨Check.object_of_same h .nil ?_, ?_⟩
  · intro part hpart v hv fragment hfragment
    simp only [List.mem_cons, List.not_mem_nil, or_false] at hpart
    rcases hpart with rfl | rfl
    · rw [Object.eq_of_mem_ofList (w := p.metadata.toJson) hv hkeys (by simp)] at hfragment
      exact Port.check_of_same hfragment
    · rw [Object.eq_of_mem_ofList (w := p.inputTensor.toJson) hv hkeys (by simp)] at hfragment
      exact Port.check_of_same hfragment
  · exact if_neg fun hchanged => hchanged.1 (merge_of_same h)

theorem Inference.check_of_same {a : Inference} {candidate : Object}
    (h : (Json.object candidate).same a.toJson = true) : Inference.check candidate = .ok () := by
  have hkeys : ["number_of_iterations"].Nodup := by decide
  refine Check.object_of_same h (.natural fun v hv => ⟨a.iterations, ?_⟩) nofun
  exact Object.eq_of_mem_ofList hv hkeys (by simp)

theorem Codec.check_of_same {a : Codec} {candidate : Object}
    (h : (Json.object candidate).same a.toJson = true) : Codec.check candidate = .ok () := by
  let members : List (String × Option Json) := [("format", a.format.map .word)]
  have hnames : (members.map Prod.fst).Nodup := List.pairwise_singleton _ _
  have hformat : ("format", a.format.map .word) ∈ members := List.mem_cons_self
  exact Check.object_of_same h (.optional hnames hformat (fun _ => rfl) .nil) nofun

theorem Request.check_of_same {r : Request} {candidate : Object}
    (h : (Json.object candidate).same r.toJson = true) : Request.check candidate = .ok () := by
  have hkeys : ["req_id"].Nodup := by decide
  obtain ⟨v, hv, -⟩ : ∃ v, Object.field? candidate "req_id" = some v ∧
      v.same (.string r.id) = true :=
    Json.field?_of_same_ofMembers (by exact hkeys) h List.mem_cons_self
  have hhas : Object.has candidate "req_id" = true := by
    rw [Object.has, hv]
    rfl
  unfold Request.check
  rw [if_pos hhas]
  refine Rule.checkAll_of_same h (.kind (fun v hv => ?_) .nil)
  rw [Object.eq_of_mem_ofList (w := .string r.id) hv hkeys (by simp)]
  rfl

namespace Common

/-- The members of the section as it is shown. -/
def members (a : Common) : List (String × Option Json) :=
  [("process_state", some (.word a.state.toWord)), ("log_level", some (.word a.logLevel)),
    ("number_of_inference_per_message", a.inferencePerMessage.map .word),
    ("inference_settings", some a.inference.toJson), ("pq_settings", some a.picture.toJson),
    ("port_settings", some a.ports.toJson), ("codec_settings", some a.codec.toJson)]

theorem members_nodup (a : Common) : (a.members.map Prod.fst).Nodup := by
  show ["process_state", "log_level", "number_of_inference_per_message", "inference_settings",
    "pq_settings", "port_settings", "codec_settings"].Nodup
  decide

/-- The rules of the section admit what is shown, if the log level is one that there is. -/
theorem admit_shown {a : Common} (hlevel : a.logLevel.toNat ≤ 5) :
    Rule.Admit rules (Object.ofOptions a.members) := by
  have hshown : ∀ {name : String} {w : Option Json}, (name, w) ∈ a.members →
      ∀ v, (name, v) ∈ Object.ofOptions a.members → w = some v :=
    fun hw _ hv => Object.eq_of_mem_ofOptions hv a.members_nodup hw
  have hstate : 1 ≤ a.state.toWord.toNat ∧ a.state.toWord.toNat ≤ 2 := by
    cases a.state <;> decide
  refine .append (.append (.append (.range (by decide) fun v hv => ?_)
    (.range (by decide) fun v hv => ?_)) (.natural fun v hv => ?_))
    (.kind (fun v hv => ?_) (.kind (fun v hv => ?_) (.kind (fun v hv => ?_)
      (.kind (fun v hv => ?_) .nil))))
  · exact ⟨a.state.toWord, (Option.some.inj (hshown (by simp [members]) v hv)).symm, hstate⟩
  · exact ⟨a.logLevel, (Option.some.inj (hshown (by simp [members]) v hv)).symm,
      Nat.zero_le _, hlevel⟩
  · obtain ⟨w, -, hw⟩ := Option.map_eq_some_iff.mp
      (hshown (w := a.inferencePerMessage.map .word) (by simp [members]) v hv)
    exact ⟨w, hw.symm⟩
  · rw [← Option.some.inj (hshown (w := some a.inference.toJson) (by simp [members]) v hv)]
    rfl
  · rw [← Option.some.inj (hshown (w := some a.picture.toJson) (by simp [members]) v hv)]
    rfl
  · rw [← Option.some.inj (hshown (w := some a.ports.toJson) (by simp [members]) v hv)]
    rfl
  · rw [← Option.some.inj (hshown (w := some a.codec.toJson) (by simp [members]) v hv)]
    rfl

/-- A common section accepts what it shows. -/
theorem check_of_same {a : Common} (hpicture : a.picture.WellFormed)
    (hlevel : a.logLevel.toNat ≤ 5) {candidate : Object}
    (h : (Json.object candidate).same a.toJson = true) : a.check candidate = .ok () := by
  refine Check.object_of_same h (admit_shown hlevel) ?_
  intro part hpart v hv fragment hfragment
  have hshown : ∀ {w : Json}, (part.1, some w) ∈ a.members →
      (Json.object fragment).same w = true := by
    intro w hw
    rw [Option.some.inj (Object.eq_of_mem_ofOptions hv a.members_nodup hw)]
    exact hfragment
  simp only [List.mem_cons, List.not_mem_nil, or_false] at hpart
  rcases hpart with rfl | rfl | rfl | rfl
  · exact Inference.check_of_same (hshown (w := a.inference.toJson) (by simp [members]))
  · exact Picture.check_of_same hpicture (hshown (by simp [members]))
  · exact Ports.check_of_same (hshown (by simp [members]))
  · exact Codec.check_of_same (hshown (w := a.codec.toJson) (by simp [members]))

end Common

/-! ### The document -/

namespace Document

/-- The members of the document as it is shown. -/
def members (d : Document) : List (String × Json) :=
  [("req_info", d.request.toJson), ("res_info", d.reply.toJson),
    ("common_settings", d.common.toJson), ("custom_settings", d.custom.toJson)]

theorem members_nodup (d : Document) : (d.members.map Prod.fst).Nodup := by
  show ["req_info", "res_info", "common_settings", "custom_settings"].Nodup
  decide

theorem request_mem (d : Document) : ("req_info", d.request.toJson) ∈ d.members := by
  simp [members]

theorem reply_mem (d : Document) : ("res_info", d.reply.toJson) ∈ d.members := by
  simp [members]

theorem common_mem (d : Document) : ("common_settings", d.common.toJson) ∈ d.members := by
  simp [members]

theorem custom_mem (d : Document) : ("custom_settings", d.custom.toJson) ∈ d.members := by
  simp [members]

/-- **A well-formed document accepts what it shows.** -/
theorem verify_of_same {d : Document} (hd : d.WellFormed) {candidate : Object}
    (h : (Json.object candidate).same d.toJson = true) : (d.verify candidate).1 = .ok () := by
  have hshown : ∀ {name : String} {w : Json}, (name, w) ∈ d.members →
      ∀ v, (name, v) ∈ Object.ofList d.members → v = w :=
    fun hw _ hv => Object.eq_of_mem_ofList hv d.members_nodup hw
  show (d.correlate candidate).check candidate = .ok ()
  refine Check.object_of_same h (.kind (fun v hv => ?_) (.kind (fun v hv => ?_)
    (.kind (fun v hv => ?_) .nil))) ?_
  · rw [hshown d.request_mem v hv]
    rfl
  · rw [hshown d.common_mem v hv]
    rfl
  · rw [hshown d.custom_mem v hv]
    rfl
  · intro part hpart v hv fragment hfragment
    simp only [List.mem_cons, List.not_mem_nil, or_false] at hpart
    rcases hpart with rfl | rfl | rfl | rfl
    · rw [hshown d.request_mem v hv] at hfragment
      exact Request.check_of_same hfragment
    · rw [hshown d.reply_mem v hv] at hfragment
      exact Check.object_of_same hfragment .nil nofun
    · rw [hshown d.common_mem v hv] at hfragment
      exact Common.check_of_same hd.picture hd.logLevel hfragment
    · rfl

end Document

end DeviceConfig
