/-
How steps add up.

A frame follows the cycle alone.  Here the value is followed with it: a `Course` is a relation
between values with their cycles that survives one step after another, so that a sequence of
steps stays on a course if each of its steps does.

A step on a part of a value is a step on the whole value.  Several of them on one part, taken
together, are the same as each of them taken on the whole, which lets a sequence inside a part
be followed as a sequence of steps on the whole.

The sections push in one and the same way: what is pushed is put in place if the sensor takes it,
and otherwise the value stays as it is.  Nothing else reaches the sensor, so what becomes of it
follows from what a single write does.
-/
import DeviceConfig.Common
import DeviceConfig.Proofs.Cycle

namespace DeviceConfig

variable {α β γ S H : Type}

/-! ### Outcomes -/

namespace Verdict

/-- What several outcomes come to: success if all of them are good, and otherwise the error of the
last one that is not. -/
def Concludes (outcomes : List Verdict) : Verdict → Prop
  | .ok () => ∀ o ∈ outcomes, o = .ok ()
  | .error e => ∃ earlier later, outcomes = earlier ++ .error e :: later ∧
      ∀ o ∈ later, o = .ok ()

namespace Concludes

theorem nil : Concludes [] (.ok ()) := nofun

theorem single (v : Verdict) : Concludes [v] v := by
  cases v with
  | ok _ => exact fun o ho => List.mem_singleton.mp ho
  | error e => exact ⟨[], [], rfl, nofun⟩

theorem append {l m : List Verdict} {v w : Verdict} (h : Concludes l v) (h' : Concludes m w) :
    Concludes (l ++ m) (v.lastFailure w) := by
  cases w with
  | error e =>
      obtain ⟨earlier, later, rfl, hlater⟩ := h'
      exact ⟨l ++ earlier, later, (List.append_assoc _ _ _).symm, hlater⟩
  | ok _ =>
      cases v with
      | ok _ => exact List.forall_mem_append.mpr ⟨h, h'⟩
      | error e =>
          obtain ⟨earlier, later, rfl, hlater⟩ := h
          refine ⟨earlier, later ++ m, List.append_assoc _ _ _, ?_⟩
          exact List.forall_mem_append.mpr ⟨hlater, h'⟩

end Concludes

end Verdict

namespace Step

/-- A step leads from a value and its cycle to what they become. -/
def Leads (R : α → Cycle S H → α → Cycle S H → Prop) (f : Step α S H) : Prop :=
  ∀ a c, R a c (f a c).value (f a c).cycle

theorem whenSome_none (f : γ → Step α S H) : whenSome none f = skip := rfl

theorem skip_andThen (f : Step α S H) : andThen skip f = f := by
  funext a c
  simp only [andThen, skip]
  rcases f a c with ⟨b, c', e | _⟩ <;> rfl

theorem andThen_skip (f : Step α S H) : andThen f skip = f := rfl

/-- After a step that does not fail, the others decide. -/
theorem all_cons_of_ok {f : Step α S H} {a b : α} {c c' : Cycle S H}
    (h : f a c = ⟨b, c', .ok ()⟩) (rest : List (Step α S H)) :
    all (f :: rest) a c = all rest b c' := by
  have hrest : all (f :: rest) a c = andThen skip (all rest) b c' := by
    show andThen f (all rest) a c = _
    simp only [andThen, h, skip]
  rw [hrest, skip_andThen]

/-- A relation that survives one step after another. -/
structure Course (R : α → Cycle S H → α → Cycle S H → Prop) : Prop where
  refl : ∀ a c, R a c a c
  trans : ∀ {a b d c c' c''}, R a c b c' → R b c' d c'' → R a c d c''

namespace Course

variable {R : α → Cycle S H → α → Cycle S H → Prop}

theorem skip (hR : Course R) : Leads R Step.skip := fun a c => hR.refl a c

theorem whenSome (hR : Course R) {found : Option γ} {f : γ → Step α S H}
    (hf : ∀ x, found = some x → Leads R (f x)) : Leads R (Step.whenSome found f) := by
  cases found with
  | none => exact hR.skip
  | some x => exact hf x rfl

theorem andThen (hR : Course R) {f g : Step α S H} (hf : Leads R f) (hg : Leads R g) :
    Leads R (Step.andThen f g) :=
  fun a c => hR.trans (hf a c) (hg (f a c).value (f a c).cycle)

theorem all (hR : Course R) {steps : List (Step α S H)} (hsteps : ∀ f ∈ steps, Leads R f) :
    Leads R (Step.all steps) := by
  induction steps with
  | nil => exact hR.skip
  | cons f rest ih =>
      have hrest : Leads R (Step.all rest) := ih fun g hg => hsteps g (by simp [hg])
      exact hR.andThen (hsteps f (by simp)) hrest

end Course

/-! ### Parts -/

/-- What is put into a part is found there, and a part has room for one thing at a time. -/
structure Part (part : α → β) (put : β → α → α) : Prop where
  part_put : ∀ b a, part (put b a) = b
  put_part : ∀ a, put (part a) a = a
  put_put : ∀ b b' a, put b' (put b a) = put b' a

namespace Part

variable {part : α → β} {put : β → α → α}

theorem on_skip (h : Part part put) : on part put (skip : Step β S H) = skip := by
  funext a c
  show (⟨put (part a) a, c, .ok ()⟩ : Progress α S H) = ⟨a, c, .ok ()⟩
  rw [h.put_part]

theorem on_andThen (h : Part part put) (f g : Step β S H) :
    on part put (andThen f g) = andThen (on part put f) (on part put g) := by
  funext a c
  simp only [on, andThen, h.part_put, h.put_put]

/-- Steps on one part, taken together, are steps on the whole. -/
theorem on_all (h : Part part put) (steps : List (Step β S H)) :
    on part put (all steps) = all (steps.map (on part put)) := by
  induction steps with
  | nil => exact h.on_skip
  | cons f rest ih =>
      show on part put (andThen f (all rest)) =
        andThen (on part put f) (all (rest.map (on part put)))
      rw [h.on_andThen, ih]

end Part

/-! ### Pushing -/

/-- A new value, without notice. -/
def become (new : α → α) : Step α S H := fun a c => ⟨new a, c, .ok ()⟩

/-- A new value, with notice, unless the one that is there will do. -/
def renew (same : α → Bool) (new : α → α) : Step α S H := fun a c =>
  if same a then ⟨a, c, .ok ()⟩ else ⟨new a, c.raise, .ok ()⟩

/-- Taking a new value leaves the sensor alone. -/
theorem renew_sensor (same : α → Bool) (new : α → α) (a : α) (c : Cycle S H) :
    (renew same new a c).cycle.sensor = c.sensor := by
  unfold renew
  split <;> rfl

theorem renew_value (same : α → Bool) (new : α → α) (a : α) (c : Cycle S H) :
    (renew same new a c).value = a ∨ (renew same new a c).value = new a := by
  unfold renew
  split
  · exact .inl rfl
  · exact .inr rfl

/-- A push, and another step if the sensor takes it. -/
def afterPush [Sensor S] (p : Property) (failure : String) (taken : Step α S H) : Step α S H :=
  fun a c =>
    match c.push p failure with
    | (.ok (), c) => taken a c
    | (.error e, c) => ⟨a, c, .error e⟩

end Step

section Pushing

variable [Sensor S]

/-- A value that is renewed after a push stays as it is or is the new one. -/
theorem Step.afterPush_value (p : Property) (failure : String) (same : α → Bool) (new : α → α)
    (a : α) (c : Cycle S H) :
    (afterPush p failure (renew same new) a c).value = a ∨
      (afterPush p failure (renew same new) a c).value = new a := by
  unfold afterPush
  split
  · exact renew_value same new a _
  · exact .inl rfl

/-- A push to a part is a push to the whole, if the part fits in where it was. -/
theorem Step.on_afterPush {part : α → β} {put : β → α → α} (hput : ∀ a, put (part a) a = a)
    (p : Property) (failure : String) (same : β → Bool) (new : β → β) :
    on part put (afterPush p failure (renew same new) : Step β S H) =
      afterPush p failure (renew (fun a => same (part a)) fun a => put (new (part a)) a) := by
  funext a c
  simp only [on, afterPush]
  split
  · simp only [renew]
    split
    · rw [hput]
    · rfl
  · rw [hput]

theorem Scalar.push_eq (s : Scalar) (p : Property) :
    (s.push p : Step Scalars S H) =
      Step.afterPush p s.failure
        (Step.renew (fun known => known.get? s == some p) fun known => known.insert s p) := rfl

theorem Structured.push_eq (s : Structured) (v : s.Value) :
    (s.push v : Step (Option s.Value) S H) =
      Step.afterPush (s.property v) s.description.failure
        (Step.renew (fun known => known == some v) fun _ => some v) := rfl

theorem RegisterWrite.push_eq {v : Json} {r : Fitting} (h : ofJson? v = some r) :
    (push v : Step (List Fitting) S H) =
      Step.afterPush ⟨.registerAccess, r.val⟩ failure (Step.become fun taken => taken ++ [r]) := by
  unfold push
  rw [h]
  rfl

theorem Ports.apply_eq (candidate : Object) :
    (apply candidate : Step Ports S H) = fun p =>
      (if p.merge candidate = p then Step.skip
      else Step.afterPush ⟨.inputDataType, (p.merge candidate).channels⟩ failure
        (Step.renew (fun _ => false) fun _ => p.merge candidate)) p := by
  funext p c
  unfold apply
  simp only
  split <;> rfl

/-! ### The sensor on the way -/

/-- A relation between sensors that survives one write after another. -/
structure Sensor.Course (K : Property → Prop) (R : S → S → Prop) : Prop where
  refl : ∀ s, R s s
  trans : ∀ {s s' s''}, R s s' → R s' s'' → R s s''
  write : ∀ {q}, K q → ∀ s, R s (Sensor.write s q).2

namespace Sensor.Course

variable {K : Property → Prop} {R : S → S → Prop}

theorem steps (h : Course K R) :
    Step.Course fun (_ : α) (c : Cycle S H) _ c' => R c.sensor c'.sensor :=
  ⟨fun _ c => h.refl c.sensor, fun hfirst hsecond => h.trans hfirst hsecond⟩

/-- A push, and whatever leaves the sensor alone after it. -/
theorem afterPush (h : Course K R) {q : Property} (hq : K q) (failure : String)
    {taken : Step α S H} (htaken : ∀ a c, (taken a c).cycle.sensor = c.sensor) :
    Step.Leads (fun _ c _ c' => R c.sensor c'.sensor) (Step.afterPush q failure taken) := by
  intro a c
  have hwrite : R c.sensor (c.push q failure).2.sensor := by
    rw [Cycle.push_snd]
    exact h.write hq c.sensor
  unfold Step.afterPush
  split
  · rename_i c' hpush
    rw [hpush] at hwrite
    rw [htaken]
    exact hwrite
  · rename_i e c' hpush
    rw [hpush] at hwrite
    exact hwrite

/-- The register writes reach the sensor as such. -/
theorem registers (h : Course K R) (hK : ∀ q, q.key = .registerAccess → K q)
    (entries : List Json) :
    Step.Leads (fun _ (c : Cycle S H) _ c' => R c.sensor c'.sensor)
      (RegisterWrite.apply entries) := by
  have hpush : ∀ v, Step.Leads (fun _ (c : Cycle S H) _ c' => R c.sensor c'.sensor)
      (RegisterWrite.push v) := by
    intro v
    cases hv : RegisterWrite.ofJson? v with
    | none =>
        intro kept c
        unfold RegisterWrite.push
        rw [hv]
        exact h.refl c.sensor
    | some r =>
        rw [RegisterWrite.push_eq hv]
        exact h.afterPush (hK _ rfl) _ fun _ _ => rfl
  have hall : Step.Leads (fun _ (c : Cycle S H) _ c' => R c.sensor c'.sensor)
      (Step.all ((entries.take RegisterWrite.maxEntries).map RegisterWrite.push)) := by
    refine h.steps.all fun f hf => ?_
    obtain ⟨v, -, rfl⟩ := List.mem_map.mp hf
    exact hpush v
  intro old c
  have hsensor := hall [] c
  unfold RegisterWrite.apply
  simp only
  split <;> exact hsensor

/-- The ports reach the sensor as their channels. -/
theorem ports (h : Course K R) (hK : ∀ q, q.key = .inputDataType → K q) (candidate : Object) :
    Step.Leads (fun _ (c : Cycle S H) _ c' => R c.sensor c'.sensor) (Ports.apply candidate) := by
  intro p c
  simp only [Ports.apply_eq]
  split
  · exact h.refl c.sensor
  · exact h.afterPush (hK _ rfl) Ports.failure (Step.renew_sensor _ _) p c

end Sensor.Course

end Pushing

end DeviceConfig
