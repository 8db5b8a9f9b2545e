/-
Merging field by field.

A merge sets the fields of a value one after the other.  The order does not matter, since each
field has a part of the value to itself: setting it forgets what was set there before, and neither
touches what another field shows nor cares about it.

Two things follow for every description that is made of such fields.  To merge a candidate again
changes nothing, and a field that the candidate does not have shows what it showed before.

The fields of the structured properties are all of two kinds, words and numbers in single precision.
The descriptions are gone through once for this; what holds of both kinds then holds of every field.
-/
import Mathlib.Data.List.Pairwise
import DeviceConfig.Picture.Structured

namespace DeviceConfig

variable {α : Type}

namespace Field

/-- To set the field is to forget what it was set to before. -/
def Overwrites (f : Field α) : Prop := ∀ x y a, f.set x (f.set y a) = f.set x a

/-- Two fields have nothing to do with each other. -/
structure Apart (f g : Field α) : Prop where
  comm : ∀ x y a, f.set x (g.set y a) = g.set y (f.set x a)
  shown : ∀ x a, f.toJson (g.set x a) = f.toJson a
  shown' : ∀ x a, g.toJson (f.set x a) = g.toJson a

instance : Std.Symm (Apart (α := α)) where
  symm _ _ h := ⟨fun x y a => (h.comm y x a).symm, h.shown', h.shown⟩

theorem merge_of_absent {candidate : Object} {f : Field α}
    (h : Object.double? candidate f.name = none) (a : α) : merge candidate a f = a := by
  unfold merge
  rw [h]

theorem Overwrites.merge_merge {f : Field α} (h : f.Overwrites) (candidate : Object) (a : α) :
    merge candidate (merge candidate a f) f = merge candidate a f := by
  unfold merge
  cases Object.double? candidate f.name with
  | none => rfl
  | some x => exact h x x a

theorem Apart.merge_comm {f g : Field α} (h : f.Apart g) (candidate : Object) (a : α) :
    merge candidate (merge candidate a g) f = merge candidate (merge candidate a f) g := by
  unfold merge
  cases Object.double? candidate f.name with
  | none => rfl
  | some x =>
      cases Object.double? candidate g.name with
      | none => rfl
      | some y => exact h.comm x y a

theorem Apart.toJson_merge {f g : Field α} (h : f.Apart g) (candidate : Object) (a : α) :
    f.toJson (merge candidate a g) = f.toJson a := by
  unfold merge
  cases Object.double? candidate g.name with
  | none => rfl
  | some y => exact h.shown y a

end Field

namespace Description

/-- The rules on a field are among the rules on the value. -/
theorem rules_subset (d : Description α) {f : Field α} (hf : f ∈ d.fields) :
    ∀ r ∈ f.rules, r ∈ d.rules :=
  fun _ hr => List.mem_flatMap.mpr ⟨f, hf, hr⟩

/-- Every field has a part of the value to itself. -/
structure Independent (d : Description α) : Prop where
  overwrites : ∀ f ∈ d.fields, f.Overwrites
  apart : d.fields.Pairwise Field.Apart

/-- A field that is apart from some others can be merged before or after them. -/
theorem foldl_merge_comm {f : Field α} {candidate : Object} {fields : List (Field α)}
    (h : ∀ g ∈ fields, f.Apart g) :
    ∀ a, Field.merge candidate (fields.foldl (Field.merge candidate) a) f =
      fields.foldl (Field.merge candidate) (Field.merge candidate a f) := by
  induction fields with
  | nil => intro a; rfl
  | cons g rest ih =>
      rw [List.forall_mem_cons] at h
      intro a
      rw [List.foldl_cons, List.foldl_cons, ih h.2, h.1.merge_comm]

/-- **To merge a candidate again changes nothing.** -/
theorem Independent.merge_merge {d : Description α} (h : d.Independent) (candidate : Object)
    (a : α) : d.merge candidate (d.merge candidate a) = d.merge candidate a := by
  have hfold : ∀ (fields : List (Field α)) (b : α), (∀ f ∈ fields, f.Overwrites) →
      fields.Pairwise Field.Apart →
      fields.foldl (Field.merge candidate) (fields.foldl (Field.merge candidate) b) =
        fields.foldl (Field.merge candidate) b := by
    intro fields
    induction fields with
    | nil => intro b _ _; rfl
    | cons f rest ih =>
        intro b hover hapart
        rw [List.forall_mem_cons] at hover
        rw [List.pairwise_cons] at hapart
        rw [List.foldl_cons, List.foldl_cons, foldl_merge_comm hapart.1, hover.1.merge_merge]
        exact ih _ hover.2 hapart.2
  exact hfold d.fields a h.overwrites h.apart

/-- A candidate that has been merged is checked with the value that it was checked with before. -/
theorem Independent.check_again {d : Description α} (h : d.Independent) {candidate : Object}
    {known known' : Option α}
    (hknown : known' = known ∨ known' = some (d.merged candidate known)) :
    d.check known' candidate = d.check known candidate := by
  have hmerged : d.merged candidate known' = d.merged candidate known := by
    rcases hknown with rfl | rfl
    · rfl
    · exact h.merge_merge candidate _
  unfold check
  rw [hmerged]

/-- Two fields of a description are the same or apart. -/
theorem Independent.eq_or_apart {d : Description α} (h : d.Independent) {f g : Field α}
    (hf : f ∈ d.fields) (hg : g ∈ d.fields) : f = g ∨ f.Apart g := by
  by_cases hne : f = g
  · exact .inl hne
  · exact .inr (h.apart.forall hf hg hne)

/-- **A field that a candidate does not have shows what it showed before.** -/
theorem Independent.toJson_merge {d : Description α} (h : d.Independent) {candidate : Object}
    {f : Field α} (hf : f ∈ d.fields) (habsent : Object.double? candidate f.name = none) (a : α) :
    f.toJson (d.merge candidate a) = f.toJson a := by
  refine merge_keeps (P := fun b => f.toJson b = f.toJson a) (fun g hg b hb => ?_) rfl
  rcases h.eq_or_apart hf hg with rfl | hapart
  · rw [Field.merge_of_absent habsent]
    exact hb
  · exact (hapart.toJson_merge candidate b).trans hb

end Description

/-! ### Structured properties -/

namespace Field

/-- A field has a lower limit, and that is a word. -/
def Limited (f : Field α) : Prop :=
  ∃ limit, limit < Nat.pow 2 53 ∧ Rule.atLeast f.name (OfNat.ofNat limit) ∈ f.rules

theorem limited_natural (name : String) (get : α → UInt32) (put : UInt32 → α → α) :
    (natural name get put).Limited :=
  ⟨0, by decide, by simp [natural, word, Rule.natural]⟩

theorem limited_range (name : String) {low : Double} (hlow : low = 0 ∨ low = 1) (high : Double)
    (get : α → UInt32) (put : UInt32 → α → α) : (range name low high get put).Limited := by
  have hrule : Rule.atLeast name low ∈ Rule.range name low high := by simp [Rule.range]
  rcases hlow with hzero | hone
  · rw [hzero] at hrule ⊢
    exact ⟨0, by decide, hrule⟩
  · rw [hone] at hrule ⊢
    exact ⟨1, by decide, hrule⟩

/-- A field that is a number: an unsigned word with a lower limit, or any number in single
precision.  What it is set to replaces what it was set to before, and it is what is shown. -/
inductive Numeric : Field α → Prop
  | word (name : String) (rules : List Rule) (get : α → UInt32) (put : UInt32 → α → α)
      (hnumber : .number name ∈ rules) (hlimited : (word name rules get put).Limited)
      (hput : ∀ w w' a, put w (put w' a) = put w a) (hget : ∀ a b, get (put (get a) b) = get a) :
      Numeric (word name rules get put)
  | single (name : String) (get : α → Single) (put : Single → α → α)
      (hput : ∀ x x' a, put x (put x' a) = put x a) (hget : ∀ x a, get (put x a) = x) :
      Numeric (single name get put)

namespace Numeric

variable {f : Field α}

theorem natural (name : String) {get : α → UInt32} {put : UInt32 → α → α}
    (hput : ∀ w w' a, put w (put w' a) = put w a) (hget : ∀ a b, get (put (get a) b) = get a) :
    (natural name get put).Numeric :=
  .word name _ get put (by simp [Rule.natural]) (limited_natural name get put) hput hget

theorem range (name : String) {low : Double} (hlow : low = 0 ∨ low = 1) (high : Double)
    {get : α → UInt32} {put : UInt32 → α → α} (hput : ∀ w w' a, put w (put w' a) = put w a)
    (hget : ∀ a b, get (put (get a) b) = get a) : (range name low high get put).Numeric :=
  .word name _ get put (by simp [Rule.range]) (limited_range name hlow high get put) hput hget

theorem overwrites (h : f.Numeric) : f.Overwrites := by
  cases h with
  | word _ _ _ _ _ _ hput _ => exact fun _ _ _ => hput _ _ _
  | single _ _ _ hput _ => exact fun _ _ _ => hput _ _ _

theorem number_mem (h : f.Numeric) : .number f.name ∈ f.rules := by
  cases h with
  | word _ _ _ _ hnumber _ _ _ => exact hnumber
  | single name _ _ _ _ => exact List.mem_singleton.mpr rfl

end Numeric

/-- A field shows a part of the value and sets it. -/
structure Views {β : Type} (f : Field α) (get : α → β) (put : β → α → α) : Prop where
  shows : ∃ write : β → Json, ∀ a, f.toJson a = write (get a)
  sets : ∃ read : Double → β, ∀ x a, f.set x a = put (read x) a

theorem views_word (name : String) (rules : List Rule) (get : α → UInt32)
    (put : UInt32 → α → α) : (word name rules get put).Views get put :=
  ⟨⟨Json.word, fun _ => rfl⟩, ⟨Double.toWord, fun _ _ => rfl⟩⟩

theorem views_single (name : String) (get : α → Single) (put : Single → α → α) :
    (single name get put).Views get put :=
  ⟨⟨Json.single, fun _ => rfl⟩, ⟨Single.ofDouble, fun _ _ => rfl⟩⟩

namespace Views

variable {β γ : Type} {f g : Field α} {get : α → β} {put : β → α → α} {get' : α → γ}
  {put' : γ → α → α}

theorem apart (hf : f.Views get put) (hg : g.Views get' put')
    (hput : ∀ b c a, put b (put' c a) = put' c (put b a))
    (hget : ∀ c a, get (put' c a) = get a) (hget' : ∀ b a, get' (put b a) = get' a) :
    f.Apart g := by
  obtain ⟨read, hset⟩ := hf.sets
  obtain ⟨read', hset'⟩ := hg.sets
  obtain ⟨write, hshow⟩ := hf.shows
  obtain ⟨write', hshow'⟩ := hg.shows
  refine ⟨fun x y a => ?_, fun x a => ?_, fun x a => ?_⟩
  · rw [hset, hset, hset', hset', hput]
  · rw [hshow, hshow, hset', hget]
  · rw [hshow', hshow', hset, hget']

end Views

end Field

theorem WhiteBalancePreset.ofIndex_index {a : WhiteBalancePreset}
    (h : a.kelvin ∈ temperatures) : ofIndex a.index = a := by
  obtain ⟨kelvin⟩ := a
  simp only [temperatures, List.mem_cons, List.not_mem_nil, or_false] at h
  rcases h with rfl | rfl | rfl | rfl <;> rfl

/-- The temperature of a preset, or that of the first, has the index that is shown. -/
theorem WhiteBalancePreset.index_ofIndex_index (a : WhiteBalancePreset) :
    index (ofIndex a.index) = a.index := by
  by_cases h : a.kelvin ∈ temperatures
  · rw [ofIndex_index h]
  · have hnone : temperatures.idxOf? a.kelvin = none := List.idxOf?_eq_none_iff.mpr h
    have hindex : a.index = 0 := by
      unfold index
      rw [hnone]
      rfl
    rw [hindex]
    rfl

/-- Every field of a structured property is a number. -/
theorem Structured.numeric (s : Structured) : ∀ f ∈ s.description.fields, f.Numeric := by
  cases s <;>
    simp only [description, ImageSize.description, ImageFlip.description,
      AutoExposure.description, ManualExposure.description, FrameRate.description,
      ImageCrop.description, Metering.description, AutoWhiteBalance.description,
      WhiteBalancePreset.description, List.forall_mem_cons, List.not_mem_nil, false_implies,
      implies_true, and_true]
  case manualWhiteBalancePreset =>
    exact .range _ (by simp) _ (fun _ _ _ => rfl) fun a _ => a.index_ofIndex_index
  all_goals
    and_intros
    all_goals first
      | exact .range _ (by simp) _ (fun _ _ _ => rfl) fun _ _ => rfl
      | exact .natural _ (fun _ _ _ => rfl) fun _ _ => rfl
      | exact .single _ _ _ (fun _ _ _ => rfl) fun _ _ => rfl

/-- The fields of every structured property have their parts to themselves. -/
theorem Structured.independent (s : Structured) : s.description.Independent := by
  refine ⟨fun f hf => (s.numeric f hf).overwrites, ?_⟩
  cases s <;>
    simp only [description, ImageSize.description, ImageFlip.description,
      AutoExposure.description, ManualExposure.description, FrameRate.description,
      ImageCrop.description, Metering.description, AutoWhiteBalance.description,
      WhiteBalancePreset.description, List.pairwise_cons, List.forall_mem_cons,
      List.not_mem_nil, false_implies, implies_true, and_true, List.Pairwise.nil]
  all_goals
    and_intros
    all_goals first
      | exact (Field.views_word _ _ _ _).apart (Field.views_word _ _ _ _) (fun _ _ _ => rfl)
          (fun _ _ => rfl) fun _ _ => rfl
      | exact (Field.views_word _ _ _ _).apart (Field.views_single _ _ _) (fun _ _ _ => rfl)
          (fun _ _ => rfl) fun _ _ => rfl
      | exact (Field.views_single _ _ _).apart (Field.views_word _ _ _ _) (fun _ _ _ => rfl)
          (fun _ _ => rfl) fun _ _ => rfl

end DeviceConfig
