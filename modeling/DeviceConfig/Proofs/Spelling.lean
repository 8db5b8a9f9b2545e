/-
What is told in full is shown as it was told.

A number can be spelled in many ways, and a document shows it in one.  So what a candidate says can
only be expected back as it was spelled if it is spelled as some document would show it.  Then it
comes back from whatever it is merged into, provided that it has a number for every field: a field
that is left out, or shown as `null`, shows what it showed before.

It comes back as the same value, which is less than equal.  A zero may change its sign on the way,
and a temperature that no preset has is shown as the first of them.
-/
import DeviceConfig.Proofs.Merging
import DeviceConfig.Proofs.Repetition
import DeviceConfig.Proofs.RoundTrip

namespace DeviceConfig

variable {α : Type}

/-! ### The same value -/

theorem Number.same_trans {m n k : Number} (h : m.same n = true) (h' : n.same k = true) :
    m.same k = true := by
  cases m with
  | integer i hi =>
      cases n with
      | double y => cases h
      | integer j hj =>
          cases k with
          | double z => cases h'
          | integer l hl => exact beq_iff_eq.mpr ((eq_of_beq h).trans (eq_of_beq h'))
  | double x =>
      cases n with
      | integer j hj => cases h
      | double y =>
          cases k with
          | integer l hl => cases h'
          | double z => exact beq_iff_eq.mpr ((eq_of_beq h).trans (eq_of_beq h'))

namespace Json

mutual

/-- What is the same as a value is the same as whatever that is the same as. -/
theorem same_trans : ∀ (v : Json) {w x : Json}, v.same w = true → w.same x = true →
    v.same x = true
  | .null, w, x, h, h' => by
      cases w with
      | null => exact h'
      | _ => cases h
  | .bool a, w, x, h, h' => by
      cases w with
      | bool b => rwa [eq_of_beq h]
      | _ => cases h
  | .number m, w, x, h, h' => by
      cases w with
      | number n =>
          cases x with
          | number k => exact Number.same_trans h h'
          | _ => cases h'
      | _ => cases h
  | .string a, w, x, h, h' => by
      cases w with
      | string b => rwa [eq_of_beq h]
      | _ => cases h
  | .array xs, w, x, h, h' => by
      cases w with
      | array ys =>
          cases x with
          | array zs => exact sameItems_trans xs h h'
          | _ => cases h'
      | _ => cases h
  | .object o, w, x, h, h' => by
      cases w with
      | object p =>
          cases x with
          | object q => exact sameMembers_trans o h h'
          | _ => cases h'
      | _ => cases h

theorem sameItems_trans : ∀ (xs : List Json) {ys zs : List Json}, sameItems xs ys = true →
    sameItems ys zs = true → sameItems xs zs = true
  | [], ys, zs, h, h' => by
      cases ys with
      | nil => exact h'
      | cons y ys => cases h
  | x :: xs, ys, zs, h, h' => by
      cases ys with
      | nil => cases h
      | cons y ys =>
          cases zs with
          | nil => cases h'
          | cons z zs =>
              simp only [sameItems, Bool.and_eq_true] at h h' ⊢
              exact ⟨same_trans x h.1 h'.1, sameItems_trans xs h.2 h'.2⟩

theorem sameMembers_trans : ∀ (o : List (String × Json)) {p q : List (String × Json)},
    sameMembers o p = true → sameMembers p q = true → sameMembers o q = true
  | [], p, q, h, h' => by
      cases p with
      | nil => exact h'
      | cons n p => cases h
  | (j, x) :: o, p, q, h, h' => by
      cases p with
      | nil => cases h
      | cons n p =>
          cases q with
          | nil => cases h'
          | cons r q =>
              obtain ⟨k, y⟩ := n
              obtain ⟨l, z⟩ := r
              simp only [sameMembers, Bool.and_eq_true, beq_iff_eq] at h h' ⊢
              exact ⟨⟨h.1.1.trans h'.1.1, same_trans x h.1.2 h'.1.2⟩,
                sameMembers_trans o h.2 h'.2⟩

end

/-- Members that are the same are put in at the same place. -/
theorem forall₂_insert {key : String} {v w : Json} (hv : v.same w = true) {o p : Object}
    (h : List.Forall₂ SameMember o p) :
    List.Forall₂ SameMember (Object.insert key v o) (Object.insert key w p) := by
  induction h with
  | nil => exact .cons ⟨rfl, hv⟩ .nil
  | @cons m n o p hm hrest ih =>
      obtain ⟨j, x⟩ := m
      obtain ⟨k, y⟩ := n
      obtain ⟨rfl, hvalue⟩ : j = k ∧ x.same y = true := hm
      unfold Object.insert
      by_cases hlt : key < j
      · rw [if_pos hlt, if_pos hlt]
        exact .cons ⟨rfl, hv⟩ (.cons ⟨rfl, hvalue⟩ hrest)
      · rw [if_neg hlt, if_neg hlt]
        by_cases heq : key = j
        · rw [if_pos heq, if_pos heq]
          exact .cons ⟨rfl, hv⟩ hrest
        · rw [if_neg heq, if_neg heq]
          exact .cons ⟨rfl, hvalue⟩ ih

/-- Objects that are written from the same members are the same. -/
theorem same_ofMembers {members members' : List (String × Json)}
    (h : List.Forall₂ SameMember members members') :
    (ofMembers members).same (ofMembers members') = true := by
  refine sameMembers_iff.mpr (List.rel_foldl (fun o p ho m n hm => ?_) .nil h)
  rw [hm.1]
  exact forall₂_insert hm.2 ho

/-- Members with the same keys in the same order are the same if their values are. -/
theorem forall₂_map {β : Type} {l : List β} {key : β → String} {value value' : β → Json}
    (h : ∀ x ∈ l, (value x).same (value' x) = true) :
    List.Forall₂ SameMember (l.map fun x => (key x, value x))
      (l.map fun x => (key x, value' x)) := by
  rw [List.forall₂_map_left_iff, List.forall₂_map_right_iff, List.forall₂_same]
  exact fun x hx => ⟨rfl, h x hx⟩

/-- Singles of the same value are shown as the same. -/
theorem single_same {x y : Single} (h : (x == y) = true) : (single x).same (single y) = true := by
  cases x with
  | nan => cases y <;> cases h
  | infinite a =>
      cases y with
      | infinite b => rfl
      | _ => cases h
  | finite x =>
      cases y with
      | finite y =>
          obtain ⟨wide, hwide⟩ := Option.isSome_iff_exists.mp (Single.isSome_toDouble? x)
          obtain ⟨wide', hwide'⟩ := Option.isSome_iff_exists.mp (Single.isSome_toDouble? y)
          obtain ⟨hsign, hunits⟩ := Finite.of?_eq_some hwide
          obtain ⟨hsign', hunits'⟩ := Finite.of?_eq_some hwide'
          obtain ⟨hmagnitude, hnegative⟩ := Finite.same_iff.mp h
          rw [single, single, hwide, hwide']
          refine Finite.same_iff.mpr ⟨by rw [hunits, hunits', hmagnitude], ?_⟩
          refine hnegative.imp (fun hs => by rw [hsign, hsign', hs]) fun hzero => ?_
          rw [hunits, hzero, Nat.zero_mul]
      | _ => cases h

end Json

/-! ### Fields -/

namespace Field

/-- A number that is what the field shows of some value is shown again by every value in which the
field is set to it. -/
def Rereads (f : Field α) : Prop :=
  ∀ {a : α} {v : Json} {x : Double}, v.same (f.toJson a) = true → v.double? = some x →
    ∀ b, (f.toJson a).same (f.toJson (f.set x b)) = true

theorem rereads_word (name : String) (rules : List Rule) {get : α → UInt32}
    {put : UInt32 → α → α} (h : ∀ a b, get (put (get a) b) = get a) :
    (word name rules get put).Rereads := by
  intro a v x hsame hx b
  have hword : x = Double.ofInt (get a).toNat :=
    Option.some.inj (hx.symm.trans (Json.double?_of_same_word hsame))
  rw [set_word, hword, Double.toWord_ofInt]
  show (Json.word (get a)).same (Json.word (get (put (get a) b))) = true
  rw [h]
  exact Json.same_self _

theorem rereads_single (name : String) {get : α → Single} {put : Single → α → α}
    (h : ∀ y b, get (put y b) = y) : (single name get put).Rereads := by
  intro a v x hsame hx b
  rcases Json.double?_of_same_single hsame with hnone | ⟨y, hy, hequal⟩
  · rw [hx] at hnone
    cases hnone
  · obtain rfl := Option.some.inj (hx.symm.trans hy)
    rw [set_single]
    show (Json.single (get a)).same (Json.single (get (put (Single.ofDouble x) b))) = true
    rw [h]
    exact Json.single_same hequal

theorem Numeric.rereads {f : Field α} (h : f.Numeric) : f.Rereads := by
  cases h with
  | word name rules _ _ _ _ _ hget => exact rereads_word name rules hget
  | single name _ _ _ hget => exact rereads_single name hget

end Field

/-! ### Values made of fields -/

namespace Description

variable {d : Description α}

/-- Once a candidate has been merged, no field has anything left to merge. -/
theorem Independent.field_merge (h : d.Independent) (candidate : Object) (a : α) :
    ∀ f ∈ d.fields, Field.merge candidate (d.merge candidate a) f = d.merge candidate a := by
  have hfold : ∀ (fields : List (Field α)) (b : α), (∀ f ∈ fields, f.Overwrites) →
      fields.Pairwise Field.Apart → ∀ f ∈ fields,
      Field.merge candidate (fields.foldl (Field.merge candidate) b) f =
        fields.foldl (Field.merge candidate) b := by
    intro fields
    induction fields with
    | nil => nofun
    | cons g rest ih =>
        intro b hover hapart f hf
        rw [List.forall_mem_cons] at hover
        rw [List.pairwise_cons] at hapart
        rw [List.foldl_cons]
        rcases List.mem_cons.mp hf with rfl | hf
        · rw [foldl_merge_comm hapart.1, hover.1.merge_merge]
        · exact ih _ hover.2 hapart.2 f hf
  exact hfold d.fields a h.overwrites h.apart

/-- Values that show the same in every field are shown as the same. -/
theorem valueToJson_same {a b : α}
    (h : ∀ f ∈ d.fields, (f.toJson a).same (f.toJson b) = true) :
    (d.valueToJson a).same (d.valueToJson b) = true :=
  Json.same_ofMembers (Json.forall₂_map h)

/-- **A fragment that spells every field of some value is shown by whatever it is merged into.** -/
theorem Independent.valueToJson_merge (h : d.Independent) (hrereads : ∀ f ∈ d.fields, f.Rereads)
    (hnames : (d.fields.map Field.name).Nodup) {fragment : Object} {a : α}
    (hsame : (Json.object fragment).same (d.valueToJson a) = true)
    (hnumbers : ∀ f ∈ d.fields, (Object.double? fragment f.name).isSome) (base : α) :
    (d.valueToJson a).same (d.valueToJson (d.merge fragment base)) = true := by
  refine valueToJson_same fun f hf => ?_
  obtain ⟨x, hx⟩ := Option.isSome_iff_exists.mp (hnumbers f hf)
  obtain ⟨v, hv, hshown⟩ := field?_of_same hnames hsame hf
  have hdouble : v.double? = some x := (Object.double?_of_field? hv).symm.trans hx
  have hset : f.set x (d.merge fragment base) = d.merge fragment base := by
    have hmerge := h.field_merge fragment base f hf
    rw [Field.merge, hx] at hmerge
    exact hmerge
  have hreread := hrereads f hf hshown hdouble (d.merge fragment base)
  rwa [hset] at hreread

end Description

/-! ### Structured properties -/

namespace Structured

/-- Values that are equal are shown as the same. -/
theorem valueToJson_of_beq (s : Structured) {a b : s.Value} (h : (a == b) = true) :
    (s.description.valueToJson a).same (s.description.valueToJson b) = true := by
  cases s with
  | autoExposure =>
      replace h : (a.maxTime == b.maxTime && (a.minTime == b.minTime && (a.maxGain == b.maxGain &&
        a.convergenceSpeed == b.convergenceSpeed))) = true := h
      simp only [Bool.and_eq_true, beq_iff_eq] at h
      obtain ⟨hmax, hmin, hgain, hspeed⟩ := h
      refine Description.valueToJson_same ?_
      simp [AutoExposure.description, description, Field.natural, Field.word, Field.single, hmax,
        hmin, hspeed, Json.same_self, Json.single_same hgain]
  | manualExposure =>
      replace h : (a.time == b.time && a.gain == b.gain) = true := h
      simp only [Bool.and_eq_true, beq_iff_eq] at h
      obtain ⟨htime, hgain⟩ := h
      refine Description.valueToJson_same ?_
      simp [ManualExposure.description, description, Field.natural, Field.word, Field.single,
        htime, Json.same_self, Json.single_same hgain]
  | cameraImageSize =>
      rw [eq_of_beq (α := ImageSize) h]
      exact Json.same_self _
  | cameraImageFlip =>
      rw [eq_of_beq (α := ImageFlip) h]
      exact Json.same_self _
  | frameRate =>
      rw [eq_of_beq (α := FrameRate) h]
      exact Json.same_self _
  | imageCropping =>
      rw [eq_of_beq (α := ImageCrop) h]
      exact Json.same_self _
  | autoExposureMetering =>
      rw [eq_of_beq (α := Metering) h]
      exact Json.same_self _
  | autoWhiteBalance =>
      rw [eq_of_beq (α := AutoWhiteBalance) h]
      exact Json.same_self _
  | manualWhiteBalancePreset =>
      rw [eq_of_beq (α := WhiteBalancePreset) h]
      exact Json.same_self _

/-- **A fragment that passes and spells some value is shown by whatever it is merged into.** -/
theorem toJson_merged (s : Structured) {fragment : Object} {a : s.Value}
    (h : (Json.object fragment).same (s.description.valueToJson a) = true)
    (hrules : Rule.checkAll s.description.rules fragment = .ok ()) (known : Option s.Value) :
    (s.description.valueToJson a).same
      (s.description.valueToJson (s.description.merged fragment known)) = true := by
  have hrereads : ∀ f ∈ s.description.fields, f.Rereads := fun f hf => (s.numeric f hf).rereads
  refine s.independent.valueToJson_merge hrereads s.nodup_names h (fun f hf => ?_) _
  obtain ⟨v, hv, -⟩ := Description.field?_of_same s.nodup_names h hf
  have hrule := s.description.rules_subset hf _ (s.numeric f hf).number_mem
  have hkind := Rule.admits_of_checkAll hrules hrule hv
  cases v with
  | number n =>
      rw [Object.double?_of_field? hv]
      rfl
  | _ => cases hkind

end Structured

/-! ### Scalars -/

/-- Properties that are equal have equal values under one key. -/
theorem Property.exists_of_beq {p q : Property} (h : (p == q) = true) :
    ∃ k v w, p = ⟨k, v⟩ ∧ q = ⟨k, w⟩ ∧ (v == w) = true := by
  obtain ⟨k, v⟩ := p
  obtain ⟨j, w⟩ := q
  by_cases hkey : j = k
  · subst hkey
    exact ⟨j, v, w, rfl, rfl, (mk_beq_mk j v w).symm.trans h⟩
  · have hnone : (⟨j, w⟩ : Property).as? k = none := dif_neg hkey
    replace h : ((⟨j, w⟩ : Property).as? k).any (v == ·) = true := h
    rw [hnone] at h
    cases h

namespace Scalar

/-- Properties that are equal are shown as the same. -/
theorem valueToJson_of_beq {p q : Property} (h : (p == q) = true) :
    (valueToJson p).same (valueToJson q) = true := by
  obtain ⟨k, v, w, rfl, rfl, hvalue⟩ := Property.exists_of_beq h
  cases k with
  | digitalZoom | evCompensation => exact Json.single_same hvalue
  | exposureMode | antiFlickerMode | whiteBalanceMode | imageRotation =>
      rw [eq_of_beq (α := UInt32) hvalue]
      exact Json.same_self _
  | _ => rfl

/-- A number that spells some property stands for a property that is shown in the same way. -/
theorem valueToJson_property {s : Scalar} {p : Property} (hp : p.key = s.key) {v : Json}
    (h : v.same (valueToJson p) = true) {x : Double} (hx : v.double? = some x) :
    (valueToJson p).same (valueToJson (s.property x)) = true := by
  rcases double?_of_same hp h with hnone | ⟨y, hy, hequal⟩
  · rw [hx] at hnone
    cases hnone
  · obtain rfl := Option.some.inj (hx.symm.trans hy)
    exact valueToJson_of_beq hequal

end Scalar

end DeviceConfig
