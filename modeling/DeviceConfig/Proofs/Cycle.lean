/-
What a step does to the cycle it runs in.

Most steps touch a cycle in two ways only: they push properties, and they make a
notification due.  A relation between cycles that both of these respect is a `Frame`, and
then every step that is built from such steps relates the cycle before it to the cycle after
it.  The steps of the combinators are settled here once, so that a section only has to
answer for the pushes of its own.

`Quiet` is the frame that says most: nothing but the sensor and the flag may have changed,
and the flag has not been lowered.
-/
import DeviceConfig.Cycle

namespace DeviceConfig

variable {α β γ S H : Type}

/-! ### Replies -/

namespace Reply

/-- What a reply says of the request, whoever asked and whether or not it has been given. -/
def answer (r : Reply) : Code × String := (r.code, r.detail)

@[simp] theorem answer_raise (r : Reply) : r.raise.answer = r.answer := rfl

end Reply

/-! ### Pushes -/

namespace Cycle

/-- A push changes the sensor, and nothing else of a cycle. -/
theorem push_snd [Sensor S] (p : Property) (failure : String) (c : Cycle S H) :
    (c.push p failure).2 = { c with sensor := (Sensor.write c.sensor p).2 } := by
  unfold push
  split
  · rename_i s h
    rw [h]
  · rename_i r s h
    rw [h]

theorem push_of_taken [Sensor S] {p : Property} {c : Cycle S H} {sensor : S}
    (h : Sensor.write c.sensor p = (.ok (), sensor)) (failure : String) :
    c.push p failure = (.ok (), { c with sensor }) := by
  simp only [push, h]

theorem push_of_refused [Sensor S] {p : Property} {c : Cycle S H} {r : Rejection} {sensor : S}
    (h : Sensor.write c.sensor p = (.error r, sensor)) (failure : String) :
    c.push p failure = (.error (.sensor r.code failure), { c with sensor }) := by
  simp only [push, h]

/-- A relation between cycles that is respected by a push and by a notice. -/
structure Frame [Sensor S] (R : Cycle S H → Cycle S H → Prop) : Prop where
  refl : ∀ c, R c c
  trans : ∀ {a b c}, R a b → R b c → R a c
  raise : ∀ c, R c c.raise
  push : ∀ p failure c, R c (Cycle.push p failure c).2

end Cycle

/-! ### Steps within a frame -/

/-- A step relates the cycle before it to the cycle after it, whatever its value. -/
def Step.Within (R : Cycle S H → Cycle S H → Prop) (f : Step α S H) : Prop :=
  ∀ a c, R c (f a c).cycle

/-- A step on a part of a value moves through the same cycles as the step itself. -/
theorem Step.Within.on {R : Cycle S H → Cycle S H → Prop} {f : Step β S H}
    (hf : Step.Within R f) (part : α → β) (put : β → α → α) :
    Step.Within R (Step.on part put f) :=
  fun a c => hf (part a) c

namespace Cycle.Frame

variable [Sensor S] {R : Cycle S H → Cycle S H → Prop}

theorem skip (hR : Frame R) : Step.Within R (Step.skip : Step α S H) :=
  fun _ c => hR.refl c

theorem whenSome (hR : Frame R) {f : γ → Step α S H} (hf : ∀ x, Step.Within R (f x))
    (found : Option γ) : Step.Within R (Step.whenSome found f) := by
  cases found with
  | none => exact hR.skip
  | some x => exact hf x

theorem store [BEq α] (hR : Frame R) (new : α) : Step.Within R (Step.store new : Step α S H) := by
  intro old c
  unfold Step.store
  split
  · exact hR.refl c
  · exact hR.raise c

theorem andThen (hR : Frame R) {f g : Step α S H} (hf : Step.Within R f)
    (hg : Step.Within R g) : Step.Within R (Step.andThen f g) :=
  fun a c => hR.trans (hf a c) (hg (f a c).value (f a c).cycle)

theorem all (hR : Frame R) {steps : List (Step α S H)}
    (hsteps : ∀ f ∈ steps, Step.Within R f) : Step.Within R (Step.all steps) := by
  induction steps with
  | nil => exact hR.skip
  | cons f rest ih =>
      have hrest : Step.Within R (Step.all rest) := ih fun g hg => hsteps g (by simp [hg])
      exact hR.andThen (hsteps f (by simp)) hrest

/-- Whatever follows a push need only be taken care of in the cycle that the push leaves. -/
theorem pushing (hR : Frame R) (p : Property) (failure : String) (c : Cycle S H)
    (taken : Cycle S H → Progress α S H) (refused : ConfigError → Cycle S H → Progress α S H)
    (htaken : ∀ c, R c (taken c).cycle) (hrefused : ∀ e c, R c (refused e c).cycle) :
    R c (match c.push p failure with
      | (.ok (), c) => taken c
      | (.error e, c) => refused e c).cycle := by
  have hpush := hR.push p failure c
  split
  · rename_i c' h
    rw [h] at hpush
    exact hR.trans hpush (htaken c')
  · rename_i e c' h
    rw [h] at hpush
    exact hR.trans hpush (hrefused e c')

end Cycle.Frame

/-! ### Quiet steps -/

/-- Nothing has changed but the sensor, except that a notification may have become due. -/
structure Cycle.Quiet (c c' : Cycle S H) : Prop where
  reply : c'.reply = c.reply ∨ c'.reply = c.reply.raise
  hook : c'.hook = c.hook
  state : c'.state = c.state
  requestId : c'.requestId = c.requestId
  requests : c'.requests = c.requests

namespace Cycle.Quiet

variable {c c' : Cycle S H}

theorem frame [Sensor S] : Frame (Quiet : Cycle S H → Cycle S H → Prop) where
  refl _ := ⟨.inl rfl, rfl, rfl, rfl, rfl⟩
  trans h h' := by
    refine ⟨?_, h'.hook.trans h.hook, h'.state.trans h.state, h'.requestId.trans h.requestId,
      h'.requests.trans h.requests⟩
    rcases h.reply with hr | hr <;> rcases h'.reply with hr' | hr' <;> rw [hr', hr]
    · exact .inl rfl
    · exact .inr rfl
    · exact .inr rfl
    · exact .inr rfl
  raise _ := ⟨.inr rfl, rfl, rfl, rfl, rfl⟩
  push p failure c := by
    rw [push_snd]
    exact ⟨.inl rfl, rfl, rfl, rfl, rfl⟩

/-- A quiet step says nothing of the request. -/
theorem answer (h : Quiet c c') : c'.reply.answer = c.reply.answer := by
  rcases h.reply with hr | hr <;> simp [hr]

end Cycle.Quiet

end DeviceConfig
