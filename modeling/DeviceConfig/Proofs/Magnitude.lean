/-
How large a number may be to be shown.

A document spells doubles, and four picture properties take single precision.  No rule stands
between the two, so a double that is too large for single precision is rounded to an infinity, which
is written to the sensor.  There is no numeral for it: if the sensor takes it, the document shows
`null`, as it does for what is not known.

The line is half a gap beyond the largest single.  Below it everything that is written is finite,
and `null` means that nothing is known.  So all that has to be said of an update is which numbers
of its text are on the wrong side of the line, and which of these the sensor has taken.
-/
import DeviceConfig.Proofs.Attempts
import DeviceConfig.Proofs.Commitment
import DeviceConfig.Proofs.Scaling
import DeviceConfig.Proofs.WellFormed

namespace DeviceConfig

variable {α S H : Type}

/-! ### Rounding to single precision -/

/-- The number is less than half a gap beyond the largest single. -/
def Double.FitsSingle (x : Double) : Prop :=
  x.units < (Nat.pow 2 128 - Nat.pow 2 103) * Double.unit

instance : DecidablePred Double.FitsSingle := fun _ => inferInstanceAs (Decidable (_ < _))

theorem Double.fitsSingle_iff (x : Double) :
    x.FitsSingle ↔ 2 * (x.units * Nat.pow 2 Format.binary32.scale) <
      Format.binary32.twiceEdge * Double.unit := by
  have hedge : Format.binary32.twiceEdge =
      Nat.pow 2 (Format.binary32.scale + 1) * (Nat.pow 2 128 - Nat.pow 2 103) := by decide +kernel
  have hunits : 2 * (x.units * Nat.pow 2 Format.binary32.scale) =
      Nat.pow 2 (Format.binary32.scale + 1) * x.units := by
    rw [← two_mul_pow_two, Nat.mul_comm x.units, Nat.mul_assoc]
  rw [hedge, hunits, Nat.mul_assoc, Nat.mul_lt_mul_left (pow_pos_two _)]
  exact Iff.rfl

namespace Single

theorem isFinite_ofUnits_iff (negative : Bool) (units : Nat) :
    (ofUnits negative units).IsFinite ↔ Format.binary32.Holds units := by
  unfold ofUnits Finite.of?
  by_cases h : Format.binary32.Holds units <;> simp [h, IsFinite]

/-- **A double is rounded to a finite single if and only if it is not too large.** -/
theorem isFinite_ofDouble_iff (x : Double) : (ofDouble x).IsFinite ↔ x.FitsSingle := by
  rw [ofDouble, ofRatio, isFinite_ofUnits_iff]
  constructor
  · intro hholds
    by_contra hlarge
    rw [Double.FitsSingle, Nat.not_lt] at hlarge
    -- The line itself is rounded up, and rounding is monotone.
    have hline : Nat.pow 2 Format.binary32.width ≤ Format.binary32.round
        ((Nat.pow 2 128 - Nat.pow 2 103) * Double.unit * Nat.pow 2 Format.binary32.scale)
        Double.unit := by decide +kernel
    have hmono := Format.round_mono (f := .binary32) (by decide) Double.unit
      (Nat.mul_le_mul_right (Nat.pow 2 Format.binary32.scale) hlarge)
    exact Nat.not_lt.mpr (Nat.le_trans hline hmono) hholds.1
  · intro hfits
    exact Format.holds_round (by decide) (by decide) (x.fitsSingle_iff.mp hfits)

/-- A number that takes the place of a finite one is finite if it is not too large. -/
theorem isFinite_getD_iff (found : Option Double) {known : Single} (hknown : known.IsFinite) :
    ((found.map ofDouble).getD known).IsFinite ↔ ∀ x, found = some x → x.FitsSingle := by
  cases found with
  | none => simpa using hknown
  | some x =>
      rw [Option.map_some, Option.getD_some, isFinite_ofDouble_iff]
      simp

/-- A finite number is shown as a number. -/
theorem single_of_finite {x : Single} (h : x.IsFinite) : ∃ n, Json.single x = .number n := by
  cases x with
  | finite y =>
      obtain ⟨d, hd⟩ := Option.isSome_iff_exists.mp (isSome_toDouble? y)
      exact ⟨.double d, by rw [Json.single, hd]⟩
  | _ => cases h

/-- Any other is shown as `null`. -/
theorem single_of_not_finite {x : Single} (h : ¬ x.IsFinite) : Json.single x = .null := by
  cases x with
  | finite _ => exact absurd trivial h
  | _ => rfl

end Single

/-! ### Properties with a float -/

/-- No part of a value is infinite or a `nan`. -/
def Key.IsFinite : (k : Key) → k.Value → Prop
  | .digitalZoom, (x : Single) | .evCompensation, (x : Single) => x.IsFinite
  | .autoExposure, a => a.maxGain.IsFinite
  | .manualExposure, a => a.gain.IsFinite
  | _, _ => True

namespace Property

/-- No part of the value is infinite or a `nan`. -/
def IsFinite (p : Property) : Prop := p.key.IsFinite p.value

instance : DecidablePred IsFinite
  | ⟨.digitalZoom, x⟩ | ⟨.evCompensation, x⟩ => inferInstanceAs (Decidable (Single.IsFinite x))
  | ⟨.autoExposure, a⟩ => inferInstanceAs (Decidable (a.maxGain.IsFinite))
  | ⟨.manualExposure, a⟩ => inferInstanceAs (Decidable (a.gain.IsFinite))
  | ⟨.cameraImageSize, _⟩ | ⟨.cameraImageFlip, _⟩ | ⟨.exposureMode, _⟩ | ⟨.frameRate, _⟩
  | ⟨.imageCrop, _⟩ | ⟨.antiFlickerMode, _⟩ | ⟨.whiteBalanceMode, _⟩ | ⟨.imageRotation, _⟩
  | ⟨.inputDataType, _⟩ | ⟨.autoExposureMetering, _⟩ | ⟨.autoWhiteBalance, _⟩
  | ⟨.manualWhiteBalancePreset, _⟩ | ⟨.registerAccess, _⟩ => .isTrue trivial

theorem isFinite_digitalZoom (x : Single) : IsFinite ⟨.digitalZoom, x⟩ ↔ x.IsFinite := Iff.rfl

theorem isFinite_evCompensation (x : Single) : IsFinite ⟨.evCompensation, x⟩ ↔ x.IsFinite :=
  Iff.rfl

end Property

/-- The number that a picture section has for the float of a property. -/
def Key.float? (fragment : Object) : Key → Option Double
  | .digitalZoom => Object.double? fragment Scalar.digitalZoom.field
  | .evCompensation => Object.double? fragment Scalar.evCompensation.field
  | .autoExposure =>
    (Object.object? fragment Structured.autoExposure.field).bind (Object.double? · "max_gain")
  | .manualExposure =>
    (Object.object? fragment Structured.manualExposure.field).bind (Object.double? · "gain")
  | _ => none

/-- A property that the document does not keep has no float. -/
theorem Key.isFinite_of_beside {k : Key} (h : ∀ i : Picture.Item, k ≠ i.key) (v : k.Value) :
    k.IsFinite v ∧ ∀ fragment, k.float? fragment = none := by
  cases k with
  | digitalZoom => exact absurd rfl (h (.scalar .digitalZoom))
  | evCompensation => exact absurd rfl (h (.scalar .evCompensation))
  | autoExposure => exact absurd rfl (h (.structured .autoExposure))
  | manualExposure => exact absurd rfl (h (.structured .manualExposure))
  | _ => exact ⟨trivial, fun _ => rfl⟩

/-- What a field does not set is left alone by its merge. -/
theorem Field.get_merge {β : Type} (get : α → β) {f : Field α}
    (hget : ∀ x a, get (f.set x a) = get a) (fragment : Object) (a : α) :
    get (merge fragment a f) = get a := by
  unfold merge
  split
  · exact hget _ a
  · rfl

/-- What a field sets is read from the number of the candidate, if it has one. -/
theorem Field.get_merge_self {β : Type} (get : α → β) (read : Double → β) {f : Field α}
    (hset : ∀ x a, get (f.set x a) = read x) (fragment : Object) (a : α) :
    get (merge fragment a f) =
      ((Object.double? fragment f.name).map read).getD (get a) := by
  unfold merge
  cases Object.double? fragment f.name with
  | none => rfl
  | some x => exact hset x a

theorem AutoExposure.maxGain_merged (fragment : Object) (known : Option AutoExposure) :
    (description.merged fragment known).maxGain =
      ((Object.double? fragment "max_gain").map Single.ofDouble).getD (known.getD {}).maxGain := by
  simp only [Description.merged, Description.merge, description, List.foldl_cons, List.foldl_nil]
  rw [Field.get_merge maxGain fun _ _ => rfl,
    Field.get_merge_self maxGain Single.ofDouble fun _ _ => rfl,
    Field.get_merge maxGain fun _ _ => rfl, Field.get_merge maxGain fun _ _ => rfl]
  rfl

theorem ManualExposure.gain_merged (fragment : Object) (known : Option ManualExposure) :
    (description.merged fragment known).gain =
      ((Object.double? fragment "gain").map Single.ofDouble).getD (known.getD {}).gain := by
  simp only [Description.merged, Description.merge, description, List.foldl_cons, List.foldl_nil]
  rw [Field.get_merge_self gain Single.ofDouble fun _ _ => rfl,
    Field.get_merge gain fun _ _ => rfl]
  rfl

namespace Picture

/-- What is known of every property is of its own kind and finite. -/
def Showable (p : Picture) : Prop :=
  ∀ (i : Item) (q : Property), i.value? p = some q → q.key = i.key ∧ q.IsFinite

namespace Item

/-- A float that is known is finite, and so is the one that a first candidate is merged over. -/
theorem isFinite_known {p : Picture} (hp : p.Showable) {s : Structured} :
    s.key.IsFinite ((p.structured.get? s).getD s.description.initial) := by
  cases hknown : p.structured.get? s with
  | some v => exact (hp (.structured s) (s.property v) (by rw [value?, hknown]; rfl)).2
  | none =>
      show s.key.IsFinite s.description.initial
      cases s with
      | autoExposure | manualExposure => exact (by decide +kernel : (0 : Single).IsFinite)
      | _ => trivial

/-- **What a property is asked to be is finite if and only if the number for its float, if there is
one, is not too large.** -/
theorem isFinite_asked_iff {i : Item} {p : Picture} (hp : p.Showable) {fragment : Object}
    {q : Property} (h : i.asked? p fragment = some q) :
    q.IsFinite ↔ ∀ x, i.key.float? fragment = some x → x.FitsSingle := by
  cases i with
  | scalar s =>
      obtain ⟨x, hx, rfl⟩ := Option.map_eq_some_iff.mp h
      have hfloat : x.FitsSingle ↔
          ∀ y, Object.double? fragment s.field = some y → y.FitsSingle := by simp [hx]
      have hrounded := (Single.isFinite_ofDouble_iff x).trans hfloat
      cases s with
      | digitalZoom => exact (Property.isFinite_digitalZoom _).trans hrounded
      | evCompensation => exact (Property.isFinite_evCompensation _).trans hrounded
      | _ => exact ⟨fun _ x hx => (by cases hx), fun _ => trivial⟩
  | structured s =>
      obtain ⟨settings, hsettings, rfl⟩ := Option.map_eq_some_iff.mp h
      have hknown : s.key.IsFinite _ := isFinite_known hp
      cases s with
      | autoExposure =>
          show (AutoExposure.description.merged settings _).maxGain.IsFinite ↔
            ∀ x, (Object.object? fragment _).bind _ = some x → _
          rw [AutoExposure.maxGain_merged, hsettings]
          exact Single.isFinite_getD_iff _ hknown
      | manualExposure =>
          show (ManualExposure.description.merged settings _).gain.IsFinite ↔
            ∀ x, (Object.object? fragment _).bind _ = some x → _
          rw [ManualExposure.gain_merged, hsettings]
          exact Single.isFinite_getD_iff _ hknown
      | _ => exact ⟨fun _ x hx => (by cases hx), fun _ => trivial⟩

end Item

end Picture

/-! ### What the sensor takes is what is held -/

/-- The attempt as it is recorded. -/
def Attempt.write (a : Attempt) : Write := ⟨a.push.property, a.answer⟩

/-- What a write makes of a slot: it is in the slot if it has been taken, unless it is no other than
what was there, and otherwise the slot is as it was. -/
structure Write.Keeps (w : Write) (old new : Option Property) : Prop where
  taken : w.outcome = .ok () →
    new = some w.property ∨ new = old ∧ (old == some w.property) = true
  refused : w.outcome ≠ .ok () → new = old

theorem Attempt.Keeps.write {a : Attempt} {old new : Option Property} (h : a.Keeps old new) :
    a.write.Keeps old new := by
  obtain ⟨push, answer⟩ := a
  cases answer with
  | ok _ => exact ⟨fun _ => h, fun hrefused => absurd rfl hrefused⟩
  | error r => exact ⟨fun htaken => (by cases htaken), fun _ => h⟩

/-- Attempts are recorded in their order. -/
theorem Attempted.writes_eq [Sensor S] {r r' : Recorder S} {attempts : List Attempt}
    (h : Attempted r attempts r') : r'.writes = r.writes ++ attempts.map Attempt.write := by
  induction h with
  | nil => exact (List.append_nil _).symm
  | cons later ih =>
      rw [ih, List.map_cons, ← List.singleton_append, ← List.append_assoc]
      rfl

namespace Picture

/-- What has been written of a property is what has become of it. -/
def Item.Heeds (i : Item) (p : Picture) (r : Recorder S) (p' : Picture) (r' : Recorder S) : Prop :=
  ∃ writes, r'.writes = r.writes ++ writes ∧
    (∀ w ∈ writes, w.property.key = i.key → w.Keeps (i.value? p) (i.value? p')) ∧
    ((∀ w ∈ writes, w.property.key ≠ i.key) → i.value? p' = i.value? p)

namespace Item.Heeds

variable {i : Item} {p p' p'' : Picture} {r r' r'' : Recorder S}

theorem refl (p : Picture) (r : Recorder S) : i.Heeds p r p r :=
  ⟨[], (List.append_nil _).symm, nofun, fun _ => rfl⟩

/-- Writes of other properties make no difference. -/
theorem beside (h : i.Heeds p r p' r') (hpushed : r'.Pushes (fun q => q.key ≠ i.key) r'')
    (hvalue : i.value? p'' = i.value? p') : i.Heeds p r p'' r'' := by
  obtain ⟨writes, hr', hkeeps, hnone⟩ := h
  obtain ⟨more, hr'', hmore⟩ := hpushed
  refine ⟨writes ++ more, by rw [hr'', hr', List.append_assoc], fun w hw hkey => ?_, fun hno => ?_⟩
  · rw [hvalue]
    rcases List.mem_append.mp hw with hw | hw
    · exact hkeeps w hw hkey
    · exact absurd hkey (hmore w hw)
  · rw [hvalue]
    exact hnone fun w hw => hno w (List.mem_append_left _ hw)

end Item.Heeds

theorem apply_heeds [Sensor S] (i : Item) {candidate : Object} (hreadable : Readable candidate)
    (p : Picture) (c : Cycle (Recorder S) H) :
    let after := apply candidate p c
    i.Heeds p c.sensor after.value after.cycle.sensor := by
  obtain ⟨attempts, hcarried, hkept, -⟩ := Turn.all_carriedOut hreadable Turn.nodup_all p c
  rw [← apply_turns] at hcarried hkept
  obtain ⟨hkeeps, hnone⟩ := hkept (.item i) (Turn.mem_all _)
  refine ⟨attempts.map Attempt.write, hcarried.attempted.writes_eq, fun w hw hkey => ?_,
    fun hno => hnone (List.filter_eq_nil_iff.mpr fun a ha hkey => ?_)⟩
  · obtain ⟨a, ha, rfl⟩ := List.mem_map.mp hw
    exact (hkeeps a (List.mem_filter.mpr ⟨ha, decide_eq_true hkey⟩)).write
  · exact hno a.write (List.mem_map_of_mem ha) (of_decide_eq_true hkey)

end Picture

namespace Common

/-- The ports are beside the picture. -/
theorem apply_heeds [Sensor S] (i : Picture.Item) {candidate : Object}
    (hreadable : Readable candidate) (a : Common) (c : Cycle (Recorder S) H) :
    let after := apply candidate a c
    i.Heeds a.picture c.sensor after.value.picture after.cycle.sensor := by
  have hother : ∀ q : Property, q.key = .inputDataType → q.key ≠ i.key :=
    fun q hq => hq ▸ i.key_inputDataType_ne
  refine apply_sections (R := fun p _ r => i.Heeds a.picture c.sensor p r) (.refl _ _)
    (fun fragment c' hfragment hsensor => ?_) fun fragment picture c' _ hheeds => ?_
  · rw [← hsensor]
    exact Picture.apply_heeds i (hreadable fragment hfragment) a.picture c'
  · exact hheeds.beside ((Ports.apply_pushes fragment a.ports c').imp hother) rfl

end Common

namespace Document

/-- **What an update has written of a property is what has become of it.** -/
theorem update_heeds [Sensor S] [Hook H] (i : Picture.Item) (state : ProcessState)
    (text : String) (k : Collaborators (Recorder S) H) (d : Document) :
    let u := d.update state text k
    i.Heeds d.common.picture k.sensor u.document.common.picture u.collaborators.sensor := by
  refine update_sections (R := fun a r => i.Heeds d.common.picture k.sensor a.picture r) state
    (.refl _ _) fun candidate settings c _ hverify hsettings hsensor => ?_
  rw [← hsensor]
  exact Common.apply_heeds i (readable_of_passes hverify hsettings) d.common c

end Document

/-! ### What is shown -/

theorem Single.isFinite_of_beq {x y : Single} (h : (x == y) = true) (hx : x.IsFinite) :
    y.IsFinite := by
  cases x with
  | finite _ => cases y with
    | finite _ => trivial
    | _ => cases h
  | _ => cases hx

/-- A value that is equal to a finite one is finite. -/
theorem Property.isFinite_of_beq {q r : Property} (hkey : q.key = r.key) (h : (q == r) = true)
    (hq : q.IsFinite) : r.IsFinite := by
  obtain ⟨k, v⟩ := q
  obtain ⟨k', w⟩ := r
  obtain rfl : k = k' := hkey
  rw [mk_beq_mk] at h
  cases k with
  | digitalZoom | evCompensation => exact Single.isFinite_of_beq h hq
  | autoExposure =>
      have hgain : (v.maxGain == w.maxGain) = true := by
        replace h : (v.maxTime == w.maxTime && (v.minTime == w.minTime &&
          (v.maxGain == w.maxGain && v.convergenceSpeed == w.convergenceSpeed))) = true := h
        simp only [Bool.and_eq_true] at h
        exact h.2.2.1
      exact Single.isFinite_of_beq hgain hq
  | manualExposure =>
      have hgain : (v.gain == w.gain) = true := by
        replace h : (v.time == w.time && v.gain == w.gain) = true := h
        simp only [Bool.and_eq_true] at h
        exact h.2
      exact Single.isFinite_of_beq hgain hq
  | _ => trivial

namespace Picture

/-- What is held of a property after some writes is of its own kind, and it is finite if and only if
all that has been taken of them is. -/
theorem Item.isFinite_held_iff {i : Item} {p p' : Picture} (hp : p.Showable)
    {r r' : Recorder S} (h : i.Heeds p r p' r') {writes : List Write}
    (hwrites : r'.writes = r.writes ++ writes) {q : Property} (hq : i.value? p' = some q) :
    q.key = i.key ∧ (q.IsFinite ↔
      ∀ w ∈ writes, w.property.key = i.key → w.outcome = .ok () → w.property.IsFinite) := by
  obtain ⟨same, hsame, hkeeps, hnone⟩ := h
  obtain rfl : writes = same := List.append_cancel_left (hwrites.symm.trans hsame)
  -- What has been taken is what is held, or no other than what was there before.
  have htaken : ∀ w ∈ writes, w.property.key = i.key → w.outcome = .ok () →
      q = w.property ∨ q.key = i.key ∧ q.IsFinite ∧ w.property.IsFinite := by
    intro w hw hkey hok
    rcases (hkeeps w hw hkey).taken hok with hnew | ⟨hold, hequal⟩
    · exact .inl (Option.some.inj (hq.symm.trans hnew))
    · rw [hq] at hold
      rw [← hold] at hequal
      obtain ⟨hown, hfinite⟩ := hp i q hold.symm
      exact .inr ⟨hown, hfinite, Property.isFinite_of_beq (hown.trans hkey.symm) hequal hfinite⟩
  by_cases hany : ∃ w ∈ writes, w.property.key = i.key ∧ w.outcome = .ok ()
  · obtain ⟨w, hw, hkey, hok⟩ := hany
    refine ⟨?_, fun hfinite w' hw' hkey' hok' => ?_, fun hall => ?_⟩
    · rcases htaken w hw hkey hok with rfl | ⟨hown, -, -⟩
      · exact hkey
      · exact hown
    · rcases htaken w' hw' hkey' hok' with rfl | ⟨-, -, hwrite⟩
      · exact hfinite
      · exact hwrite
    · rcases htaken w hw hkey hok with rfl | ⟨-, hfinite, -⟩
      · exact hall w hw hkey hok
      · exact hfinite
  · have hold : i.value? p' = i.value? p := by
      by_cases hwritten : ∃ w ∈ writes, w.property.key = i.key
      · obtain ⟨w, hw, hkey⟩ := hwritten
        exact (hkeeps w hw hkey).refused fun hok => hany ⟨w, hw, hkey, hok⟩
      · exact hnone fun w hw hkey => hwritten ⟨w, hw, hkey⟩
    obtain ⟨hown, hfinite⟩ := hp i q (hold.symm.trans hq)
    exact ⟨hown, fun _ w hw hkey hok => absurd ⟨w, hw, hkey, hok⟩ hany, fun _ => hfinite⟩

/-- What is taken of a property is known. -/
theorem Item.isSome_of_taken {i : Item} {p p' : Picture} {r r' : Recorder S}
    (h : i.Heeds p r p' r') {writes : List Write} (hwrites : r'.writes = r.writes ++ writes)
    {w : Write} (hw : w ∈ writes) (hkey : w.property.key = i.key) (hok : w.outcome = .ok ()) :
    (i.value? p').isSome := by
  obtain ⟨same, hsame, hkeeps, -⟩ := h
  obtain rfl : writes = same := List.append_cancel_left (hwrites.symm.trans hsame)
  rcases (hkeeps w hw hkey).taken hok with hnew | ⟨hold, hequal⟩
  · rw [hnew]
    rfl
  · rw [hold]
    cases hknown : i.value? p with
    | some _ => rfl
    | none => rw [hknown] at hequal; cases hequal

end Picture

namespace Scalar

variable {s : Scalar} {q : Property}

/-- A scalar of its own kind is shown as a number if it is finite. -/
theorem valueToJson_of_finite (hkey : q.key = s.key) (hq : q.IsFinite) :
    ∃ n, valueToJson q = .number n := by
  obtain ⟨k, v⟩ := q
  obtain rfl : k = s.key := hkey
  cases s with
  | digitalZoom | evCompensation => exact Single.single_of_finite hq
  | _ => exact ⟨_, rfl⟩

theorem valueToJson_of_not_finite (hkey : q.key = s.key) (hq : ¬ q.IsFinite) :
    valueToJson q = .null := by
  obtain ⟨k, v⟩ := q
  obtain rfl : k = s.key := hkey
  cases s with
  | digitalZoom | evCompensation => exact Single.single_of_not_finite hq
  | _ => exact absurd trivial hq

theorem toJson_of_known {known : Scalars} (hq : known.get? s = some q) :
    s.toJson known = valueToJson q := by
  unfold toJson
  rw [hq]
  rfl

theorem toJson_number_iff {known : Scalars} (hq : known.get? s = some q) (hkey : q.key = s.key) :
    (∃ n, s.toJson known = .number n) ↔ q.IsFinite := by
  rw [toJson_of_known hq]
  refine ⟨fun ⟨n, hn⟩ => ?_, valueToJson_of_finite hkey⟩
  by_contra hnot
  rw [valueToJson_of_not_finite hkey hnot] at hn
  cases hn

theorem toJson_null_iff {known : Scalars} (hq : known.get? s = some q) (hkey : q.key = s.key) :
    s.toJson known = .null ↔ ¬ q.IsFinite := by
  rw [toJson_of_known hq]
  refine ⟨fun hnull hfinite => ?_, valueToJson_of_not_finite hkey⟩
  obtain ⟨n, hn⟩ := valueToJson_of_finite hkey hfinite
  rw [hnull] at hn
  cases hn

end Scalar

namespace Picture

variable {p p' : Picture} {r r' : Recorder S} {writes : List Write}

/-- After some writes, a scalar that has been taken is shown as a number if and only if all that has
been taken of it is finite. -/
theorem scalar_number_iff (hp : p.Showable) {s : Scalar} (h : (Item.scalar s).Heeds p r p' r')
    (hwrites : r'.writes = r.writes ++ writes) {w : Write} (hw : w ∈ writes)
    (hkey : w.property.key = s.key) (hok : w.outcome = .ok ()) :
    (∃ n, s.toJson p'.scalars = .number n) ↔
      ∀ w ∈ writes, w.property.key = s.key → w.outcome = .ok () → w.property.IsFinite := by
  obtain ⟨q, hq⟩ := Option.isSome_iff_exists.mp (Item.isSome_of_taken h hwrites hw hkey hok)
  obtain ⟨hown, hfinite⟩ := Item.isFinite_held_iff hp h hwrites hq
  rw [Scalar.toJson_number_iff hq hown, hfinite]
  exact Iff.rfl

/-- After some writes, a scalar is shown as `null` if and only if it is not known, or something has
been taken of it that is not finite. -/
theorem scalar_null_iff (hp : p.Showable) {s : Scalar} (h : (Item.scalar s).Heeds p r p' r')
    (hwrites : r'.writes = r.writes ++ writes) :
    s.toJson p'.scalars = .null ↔ p'.scalars.get? s = none ∨
      ∃ w ∈ writes, w.property.key = s.key ∧ w.outcome = .ok () ∧ ¬ w.property.IsFinite := by
  cases hq : p'.scalars.get? s with
  | none =>
      have hnull : s.toJson p'.scalars = .null := by rw [Scalar.toJson, hq]; rfl
      exact ⟨fun _ => .inl rfl, fun _ => hnull⟩
  | some q =>
      obtain ⟨hown, hfinite⟩ := Item.isFinite_held_iff hp h hwrites hq
      rw [Scalar.toJson_null_iff hq hown, hfinite]
      simp only [not_forall, exists_prop, reduceCtorEq, false_or]
      exact Iff.rfl

/-- After some writes, all that is known is finite if and only if all that has been taken is. -/
theorem showable_iff (hp : p.Showable) (h : ∀ i : Item, i.Heeds p r p' r')
    (hwrites : r'.writes = r.writes ++ writes) :
    p'.Showable ↔ ∀ w ∈ writes, w.outcome = .ok () → w.property.IsFinite := by
  refine ⟨fun hshowable w hw hok => ?_, fun hall i q hq => ?_⟩
  · by_cases hitem : ∃ i : Item, w.property.key = i.key
    · obtain ⟨i, hkey⟩ := hitem
      obtain ⟨q, hq⟩ := Option.isSome_iff_exists.mp
        (Item.isSome_of_taken (h i) hwrites hw hkey hok)
      obtain ⟨-, hfinite⟩ := Item.isFinite_held_iff hp (h i) hwrites hq
      exact hfinite.mp (hshowable i q hq).2 w hw hkey hok
    · exact (Key.isFinite_of_beside (fun i hi => hitem ⟨i, hi⟩) w.property.value).1
  · obtain ⟨hown, hfinite⟩ := Item.isFinite_held_iff hp (h i) hwrites hq
    exact ⟨hown, hfinite.mpr fun w hw _ hok => hall w hw hok⟩

end Picture

/-! ### Updates -/

namespace Document

/-- The number that a text has for the float of a property. -/
def float? (text : String) (k : Key) : Option Double := (pictureOf? text).bind k.float?

/-- What is asked for is finite if and only if the number for its float, if there is one, is not too
large. -/
theorem isFinite_iff_of_asks {i : Picture.Item} {p : Picture} (hp : p.Showable) {text : String}
    {q : Property} (h : Asks i p text q) :
    q.IsFinite ↔ ∀ x, float? text q.key = some x → x.FitsSingle := by
  obtain ⟨fragment, hfragment, -, hasked⟩ := h
  rw [Picture.Item.isFinite_asked_iff hp hasked, Picture.Item.key_of_asked? hasked, float?,
    hfragment, Option.bind_some]

variable [Sensor S] [Hook H]

/-- What is written is finite if and only if the number for its float is not too large. -/
theorem isFinite_written_iff (state : ProcessState) (text : String)
    (k : Collaborators (Recorder S) H) {d : Document} (hd : d.common.picture.Showable)
    {writes : List Write}
    (hwrites : (d.update state text k).collaborators.sensor.writes = k.sensor.writes ++ writes)
    {w : Write} (hw : w ∈ writes) :
    w.property.IsFinite ↔ ∀ x, float? text w.property.key = some x → x.FitsSingle := by
  by_cases hitem : ∃ i : Picture.Item, w.property.key = i.key
  · obtain ⟨i, hi⟩ := hitem
    obtain ⟨same, hsame, hasked⟩ := (update_commits i state text k d).pushed
    obtain rfl : writes = same := List.append_cancel_left (hwrites.symm.trans hsame)
    exact isFinite_iff_of_asks hd (hasked w hw hi)
  · obtain ⟨hfinite, hnone⟩ := Key.isFinite_of_beside (fun i hi => hitem ⟨i, hi⟩) w.property.value
    refine ⟨fun _ x hx => ?_, fun _ => hfinite⟩
    obtain ⟨fragment, -, hfloat⟩ := Option.bind_eq_some_iff.mp hx
    rw [hnone] at hfloat
    cases hfloat

/-- **Only numbers that are not too large are written and shown as numbers.**  What is known of the
picture is finite and of its own kind.  Then what is written in an update is finite if and only if
the number that the text has for its float is not too large.  Of a scalar that the sensor has taken,
a number is shown if and only if it is finite; `null` is shown if nothing is known, or if the sensor
has taken what is not finite.  All that is known is finite again if and only if all that the sensor
has taken is. -/
theorem update_shows (state : ProcessState) (text : String) (k : Collaborators S H) {d : Document}
    (hd : d.common.picture.Showable) :
    let p := (d.update state text k).document.common.picture
    let writes := (d.update state text k.recorded).collaborators.sensor.writes
    (∀ w ∈ writes,
      (w.property.IsFinite ↔ ∀ x, float? text w.property.key = some x → x.FitsSingle)) ∧
    (∀ s : Scalar, ∀ w ∈ writes, w.property.key = s.key → w.outcome = .ok () →
      ((∃ n, s.toJson p.scalars = .number n) ↔ w.property.IsFinite)) ∧
    (∀ s : Scalar, s.toJson p.scalars = .null ↔ p.scalars.get? s = none ∨
      ∃ w ∈ writes, w.property.key = s.key ∧ w.outcome = .ok () ∧ ¬ w.property.IsFinite) ∧
    (p.Showable ↔ ∀ w ∈ writes, w.outcome = .ok () → w.property.IsFinite) := by
  intro p writes
  let u := d.update state text k.recorded
  have hplain : u.plain = d.update state text k := update_plain state text k.recorded d
  have hp : u.document.common.picture = p := congrArg (·.document.common.picture) hplain
  have hwrites : u.collaborators.sensor.writes = [] ++ writes := rfl
  have hwritten : ∀ w ∈ writes,
      (w.property.IsFinite ↔ ∀ x, float? text w.property.key = some x → x.FitsSingle) :=
    fun w hw => isFinite_written_iff state text k.recorded hd hwrites hw
  have hheeds : ∀ i : Picture.Item, i.Heeds d.common.picture ⟨k.sensor, []⟩ p
      u.collaborators.sensor := fun i => hp ▸ update_heeds i state text k.recorded d
  refine ⟨hwritten, fun s w hw hkey hok => ?_, fun s => ?_, ?_⟩
  · rw [Picture.scalar_number_iff hd (hheeds (.scalar s)) hwrites hw hkey hok]
    refine ⟨fun hall => hall w hw hkey hok, fun hfinite w' hw' hkey' _ => ?_⟩
    -- Whatever is written of a property in one update comes from one number.
    rw [hwritten w' hw', hkey'.trans hkey.symm, ← hwritten w hw]
    exact hfinite
  · exact Picture.scalar_null_iff hd (hheeds (.scalar s)) hwrites
  · exact Picture.showable_iff hd hheeds hwrites

/-- What a sensor reports is all that is known once it is loaded. -/
theorem load_showable {sensor : S} (hsensor : ∀ k q, Sensor.read sensor k = some q →
    q.key = k ∧ q.IsFinite) (d : Document) : (d.load sensor).common.picture.Showable := by
  intro i q hq
  cases i with
  | scalar s => exact hsensor s.key q ((Picture.get?_load_scalars sensor _ s).symm.trans hq)
  | structured s =>
      obtain ⟨v, hv, rfl⟩ := Option.map_eq_some_iff.mp hq
      have hload : s.load sensor = some v := (Picture.get?_load_structured sensor _ s).symm.trans hv
      obtain ⟨⟨k, w⟩, hr, has⟩ := Option.bind_eq_some_iff.mp hload
      obtain rfl : k = s.key := (hsensor s.key _ hr).1
      obtain rfl : w = v := Option.some.inj ((Property.as?_self ⟨s.key, w⟩).symm.trans has)
      exact hsensor s.key _ hr

/-- What a sensor reports after power-on is finite. -/
theorem finite_powerOn (k : Key) (q : Property) (hq : Sensor.read Simulator.powerOn k = some q) :
    q.key = k ∧ q.IsFinite := by
  have hall : (Sensor.read Simulator.powerOn k).all fun q => decide (q.key = k ∧ q.IsFinite) := by
    cases k <;> decide +kernel
  rw [hq] at hall
  exact of_decide_eq_true hall

/-- A request for a digital zoom. -/
def magnified (zoom : Double) : String :=
  (Json.ofMembers [("common_settings", .ofMembers [("pq_settings", .ofMembers
    [("digital_zoom", .number (.double zoom))])])]).text

/-- What a document that knows all that a sensor holds after power-on has become after such a
request, and its collaborators with what they have been told. -/
def zoomed (zoom : Double) : Updated (Recorder Simulator) (HookRecorder Indifferent) :=
  (load Simulator.powerOn {}).update .idle (magnified zoom) obliging.recorded

/-- The greatest number that is not too large. -/
def greatest : Double := .ofInt (2 ^ 128 - 2 ^ 103 - 2 ^ 75)

/-- The greatest number that is not too large is written as a number and shown as one. -/
theorem update_shows_greatest :
    let p := ((load Simulator.powerOn {}).update .idle (magnified greatest)
      obliging).document.common.picture
    (load Simulator.powerOn {}).common.picture.Showable ∧
      (zoomed greatest).collaborators.sensor.writes.length = 1 ∧
      (∀ w ∈ (zoomed greatest).collaborators.sensor.writes,
        w.property.key = .digitalZoom ∧ w.outcome = .ok () ∧ w.property.IsFinite ∧
          ∃ n, Scalar.digitalZoom.toJson p.scalars = .number n) ∧ p.Showable := by
  have hloaded : (load Simulator.powerOn {}).common.picture.Showable :=
    load_showable finite_powerOn {}
  have hfits : (float? (magnified greatest) .digitalZoom).all fun x => decide x.FitsSingle := by
    decide +kernel
  have htaken : ∀ w ∈ (zoomed greatest).collaborators.sensor.writes,
      w.property.key = .digitalZoom ∧ w.outcome = .ok () := by decide +kernel
  have hzoomed : (load Simulator.powerOn {}).update .idle (magnified greatest)
    obliging.recorded = zoomed greatest := rfl
  obtain ⟨hwritten, hshown, -, hkept⟩ := update_shows .idle (magnified greatest) obliging hloaded
  rw [hzoomed] at hwritten hshown hkept
  have hfinite : ∀ w ∈ (zoomed greatest).collaborators.sensor.writes, w.property.IsFinite := by
    intro w hw
    refine (hwritten w hw).mpr fun x hx => ?_
    rw [(htaken w hw).1] at hx
    rw [hx, Option.all_some] at hfits
    exact of_decide_eq_true hfits
  refine ⟨hloaded, by decide +kernel, fun w hw => ?_, hkept.mpr fun w hw _ => hfinite w hw⟩
  obtain ⟨hkey, hok⟩ := htaken w hw
  exact ⟨hkey, hok, hfinite w hw, (hshown .digitalZoom w hw hkey hok).mpr (hfinite w hw)⟩

/-- A number that is too large passes the rules and is written as an infinity.  Once the sensor has
taken it, `null` is shown for a zoom that is known. -/
theorem zoom_of_too_large :
    let p := (zoomed (.powerOfTen 39)).document.common.picture
    (load Simulator.powerOn {}).common.picture.Showable ∧
      (∃ w ∈ (zoomed (.powerOfTen 39)).collaborators.sensor.writes,
        w.property.key = .digitalZoom ∧ w.outcome = .ok () ∧ ¬ w.property.IsFinite) ∧
      (p.scalars.get? .digitalZoom).isSome = true ∧
      Scalar.digitalZoom.toJson p.scalars = .null := by
  intro p
  have hheld : (p.scalars.get? .digitalZoom).any fun q =>
      decide (q.key = .digitalZoom ∧ ¬ q.IsFinite) := by decide +kernel
  obtain ⟨q, hq, hlarge⟩ := (Option.any_eq_true _ _).mp hheld
  obtain ⟨hkey, hnot⟩ := of_decide_eq_true hlarge
  exact ⟨load_showable finite_powerOn {}, by decide +kernel, by rw [hq]; rfl,
    (Scalar.toJson_null_iff hq hkey).mpr hnot⟩

end Document

end DeviceConfig
