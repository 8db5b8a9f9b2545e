/-
What the sections do to the cycle they are applied in.

Every part of the common section works through pushes and notices alone, so it stays within
every frame.  The common section as a whole does two things more: it asks for changes of life,
and while the device runs it may answer with a refusal.  The application's section is the only
one that talks to the application, and it does not touch the sensor.
-/
import DeviceConfig.Common
import DeviceConfig.Custom
import DeviceConfig.Proofs.Cycle

namespace DeviceConfig

variable {S H : Type}

section Within

variable [Sensor S] {R : Cycle S H → Cycle S H → Prop}

/-! ### The parts of the common section -/

theorem Scalar.apply_within (hR : Cycle.Frame R) (candidate : Object) (s : Scalar) :
    Step.Within R (Scalar.apply candidate s : Step Scalars S H) := by
  refine hR.whenSome (fun x => ?_) _
  intro known c
  refine hR.pushing _ _ c _ _ (fun c => ?_) fun _ c => hR.refl c
  split
  · exact hR.refl c
  · exact hR.raise c

theorem Structured.apply_within (hR : Cycle.Frame R) (candidate : Object) (s : Structured) :
    Step.Within R (Structured.apply candidate s : Step (Option s.Value) S H) := by
  intro known c
  refine hR.pushing _ _ c _ _ (fun c => ?_) fun _ c => hR.refl c
  split
  · exact hR.refl c
  · exact hR.raise c

theorem RegisterWrite.push_within (hR : Cycle.Frame R) (v : Json) :
    Step.Within R (RegisterWrite.push v : Step (List RegisterWrite.Fitting) S H) := by
  intro taken c
  unfold RegisterWrite.push
  split
  · exact hR.refl c
  · exact hR.pushing _ _ c _ _ (fun c => hR.refl c) fun _ c => hR.refl c

theorem RegisterWrite.apply_within (hR : Cycle.Frame R) (entries : List Json) :
    Step.Within R (RegisterWrite.apply entries : Step (List RegisterWrite.Fitting) S H) := by
  intro old c
  have hpushes : Step.Within R
      (Step.all ((entries.take maxEntries).map push) : Step (List RegisterWrite.Fitting) S H) := by
    refine hR.all fun f hf => ?_
    obtain ⟨v, -, rfl⟩ := List.mem_map.mp hf
    exact push_within hR v
  have h := hpushes [] c
  unfold RegisterWrite.apply
  simp only
  split
  · exact h
  · exact hR.trans h (hR.raise _)

theorem Picture.applyStructured_within (hR : Cycle.Frame R) (candidate : Object)
    (s : Structured) : Step.Within R (Picture.applyStructured candidate s : Step Picture S H) :=
  hR.whenSome (fun fragment => (Structured.apply_within hR fragment s).on _ _) _

theorem Picture.apply_within (hR : Cycle.Frame R) (candidate : Object) :
    Step.Within R (Picture.apply candidate : Step Picture S H) := by
  refine hR.all fun f hf => ?_
  rcases List.mem_cons.mp hf with rfl | hf
  · have hscalars : Step.Within R
        (Step.all (Scalar.all.map (Scalar.apply candidate)) : Step Scalars S H) := by
      refine hR.all fun f hf => ?_
      obtain ⟨s, -, rfl⟩ := List.mem_map.mp hf
      exact Scalar.apply_within hR candidate s
    exact hscalars.on _ _
  rcases List.mem_cons.mp hf with rfl | hf
  · exact hR.whenSome (fun entries => (RegisterWrite.apply_within hR entries).on _ _) _
  · obtain ⟨s, -, rfl⟩ := List.mem_map.mp hf
    exact applyStructured_within hR candidate s

theorem Ports.apply_within (hR : Cycle.Frame R) (candidate : Object) :
    Step.Within R (Ports.apply candidate : Step Ports S H) := by
  intro p c
  unfold Ports.apply
  simp only
  split
  · exact hR.refl c
  · exact hR.pushing _ _ c _ _ (fun c => hR.raise c) fun _ c => hR.refl c

theorem Codec.apply_within (hR : Cycle.Frame R) (candidate : Object) :
    Step.Within R (Codec.apply candidate : Step Codec S H) :=
  hR.whenSome (fun _ => hR.store _) _

theorem Inference.apply_within (hR : Cycle.Frame R) (candidate : Object) :
    Step.Within R (Inference.apply candidate : Step Inference S H) :=
  hR.whenSome (fun _ => hR.store _) _

/-! ### The common section -/

namespace Common

theorem applyPart_within {β : Type} (hR : Cycle.Frame R) {f : Object → Step β S H}
    (hf : ∀ fragment, Step.Within R (f fragment)) (candidate : Object) (name : String)
    (part : Common → β) (put : β → Common → Common) :
    Step.Within R (applyPart candidate name part put f) :=
  hR.whenSome (fun fragment => (hf fragment).on part put) _

theorem applyAdmitted_within (hR : Cycle.Frame R) (candidate : Object) :
    Step.Within R (applyAdmitted candidate : Step Common S H) := by
  refine hR.all fun f hf => ?_
  simp only [List.mem_cons, List.not_mem_nil, or_false] at hf
  rcases hf with rfl | rfl | rfl | rfl | rfl
  · exact hR.whenSome (fun n => (hR.store (some n)).on _ _) _
  · exact applyPart_within hR (fun o => Inference.apply_within hR o) _ _ _ _
  · exact applyPart_within hR (fun o => Picture.apply_within hR o) _ _ _ _
  · exact applyPart_within hR (fun o => Ports.apply_within hR o) _ _ _ _
  · exact applyPart_within hR (fun o => Codec.apply_within hR o) _ _ _ _

/-- The section stays within a frame that also allows for requests and for a refusal. -/
theorem apply_within (hR : Cycle.Frame R)
    (hrequests : ∀ (c : Cycle S H) requests, R c { c with requests })
    (hrefusal : ∀ c : Cycle S H,
      R c { c with reply := (c.reply.setDetail refusal).setCode .failedPrecondition })
    (candidate : Object) : Step.Within R (apply candidate : Step Common S H) := by
  refine hR.all fun f hf => ?_
  simp only [List.mem_cons, List.not_mem_nil, or_false] at hf
  rcases hf with rfl | rfl | rfl | rfl <;> intro a c
  · unfold requestState
    split
    · exact hrequests c _
    · exact hR.refl c
  · unfold applyLogLevel
    split
    · split
      · exact hR.refl c
      · exact hR.trans (hrequests c _) (hR.raise _)
    · exact hR.refl c
  · unfold refuse
    split
    · exact hrefusal c
    · exact hR.refl c
  · exact applyAdmitted_within hR _ a c

end Common

end Within

/-! ### What the common section leaves alone, and what it answers -/

/-- A later stage of the same application: it answers the same request, and a notification
that was due still is. -/
structure Cycle.Onward (c c' : Cycle S H) : Prop where
  state : c'.state = c.state
  requestId : c'.requestId = c.requestId
  resId : c'.reply.resId = c.reply.resId
  raised : c.reply.raised = true → c'.reply.raised = true

namespace Cycle.Onward

theorem frame [Sensor S] : Frame (Onward : Cycle S H → Cycle S H → Prop) where
  refl _ := ⟨rfl, rfl, rfl, id⟩
  trans h h' := ⟨h'.state.trans h.state, h'.requestId.trans h.requestId,
    h'.resId.trans h.resId, fun hc => h'.raised (h.raised hc)⟩
  raise _ := ⟨rfl, rfl, rfl, fun _ => rfl⟩
  push p failure c := by
    rw [push_snd]
    exact ⟨rfl, rfl, rfl, id⟩

end Cycle.Onward

namespace Common

variable [Sensor S]

theorem apply_onward (candidate : Object) (a : Common) (c : Cycle S H) :
    Cycle.Onward c (apply candidate a c).cycle :=
  apply_within Cycle.Onward.frame (fun _ _ => ⟨rfl, rfl, rfl, id⟩)
    (fun _ => ⟨rfl, rfl, rfl, fun _ => rfl⟩) candidate a c

/-- The common section does not talk to the application. -/
theorem apply_hook (candidate : Object) (a : Common) (c : Cycle S H) :
    (apply candidate a c).cycle.hook = c.hook := by
  have hframe : Cycle.Frame fun c c' : Cycle S H => c'.hook = c.hook :=
    { refl := fun _ => rfl
      trans := fun h h' => h'.trans h
      raise := fun _ => rfl
      push := fun p failure c => by rw [Cycle.push_snd] }
  exact apply_within hframe (fun _ _ => rfl) (fun _ => rfl) candidate a c

end Common

/-! ### The answer of the common section

Two steps come before the refusal.  They write requests, and the second may store a log level,
so neither of them has a say in whether the refusal is due.
-/

namespace Common

theorem requestState_eq (candidate : Object) (a : Common) (c : Cycle S H) :
    ∃ requests, requestState candidate a c = ⟨a, { c with requests }, .ok ()⟩ := by
  unfold requestState
  split
  · exact ⟨_, rfl⟩
  · exact ⟨c.requests, rfl⟩

theorem applyLogLevel_eq (candidate : Object) (a : Common) (c : Cycle S H) :
    ∃ logLevel requests reply,
      applyLogLevel candidate a c = ⟨{ a with logLevel }, { c with requests, reply }, .ok ()⟩ ∧
        (reply = c.reply ∨ reply = c.reply.raise) := by
  unfold applyLogLevel
  split
  · split
    · exact ⟨a.logLevel, c.requests, c.reply, rfl, .inl rfl⟩
    · exact ⟨_, _, _, rfl, .inr rfl⟩
  · exact ⟨a.logLevel, c.requests, c.reply, rfl, .inl rfl⟩

/-- The refusal is the only thing that a common section answers. -/
theorem refuse_answer (candidate : Object) (a : Common) (c : Cycle S H) :
    (refuse candidate a c).cycle.reply.answer =
      if c.state = .running ∧ a.changesStream candidate then (.failedPrecondition, refusal)
      else c.reply.answer := by
  unfold refuse
  split <;> rfl

/-- **The common section answers with the refusal if it is due, and otherwise not at all.** -/
theorem apply_answer [Sensor S] (candidate : Object) (a : Common) (c : Cycle S H) :
    (apply candidate a c).cycle.reply.answer =
      if c.state = .running ∧ a.changesStream candidate then (.failedPrecondition, refusal)
      else c.reply.answer := by
  obtain ⟨requests, hstate⟩ := requestState_eq candidate a c
  obtain ⟨logLevel, requests', reply, hlevel, hreply⟩ :=
    applyLogLevel_eq candidate a { c with requests }
  have hanswer : reply.answer = c.reply.answer := by
    rcases hreply with h | h <;> rw [h]
    rfl
  simp only [apply, Step.all, List.foldr, Step.andThen, Step.skip, hstate, hlevel]
  rw [(applyAdmitted_within Cycle.Quiet.frame _ _ _).answer, refuse_answer, ← hanswer]
  rfl

end Common

/-! ### The application's section -/

namespace Custom

variable [Hook H]

theorem apply_of_unchanged {candidate : Object} {a : Custom}
    (h : unchanged a.settings candidate = true) (c : Cycle S H) :
    apply candidate a c = ⟨a, c, .ok ()⟩ := by
  unfold apply
  rw [if_pos h]

/-- What the application answers to a candidate that it is handed in some cycle. -/
def verdict (candidate : Object) (c : Cycle S H) : Verdict × H :=
  Hook.configure c.hook "custom_settings"
    (Json.object (stamp (accepted c.requestId) candidate)).text

/-- A candidate as it is kept: with a stamp, and with another one over it if the application
has rejected it. -/
def kept (requestId : String) (candidate : Object) : Verdict → Object
  | .ok () => stamp (accepted requestId) candidate
  | .error e => stamp (rejected requestId e) (stamp (accepted requestId) candidate)

/-- New settings are kept whatever the application says of them. -/
theorem apply_of_changed {candidate : Object} {a : Custom}
    (h : unchanged a.settings candidate = false) (c : Cycle S H) :
    apply candidate a c =
      ⟨⟨kept c.requestId candidate (verdict candidate c).1⟩,
        { c with reply := c.reply.raise, hook := (verdict candidate c).2 },
        (verdict candidate c).1⟩ := by
  unfold apply
  rw [if_neg (by simp [h])]
  simp only [Cycle.configure]
  split
  · rename_i c' hverdict
    obtain ⟨hok, rfl⟩ := Prod.mk.inj hverdict
    have hv : (verdict candidate c).1 = .ok () := hok
    rw [hv]
    rfl
  · rename_i e c' hverdict
    obtain ⟨herror, rfl⟩ := Prod.mk.inj hverdict
    have hv : (verdict candidate c).1 = .error e := herror
    rw [hv]
    rfl

theorem apply_onward (candidate : Object) (a : Custom) (c : Cycle S H) :
    Cycle.Onward c (apply candidate a c).cycle := by
  cases h : unchanged a.settings candidate with
  | true =>
      rw [apply_of_unchanged h]
      exact ⟨rfl, rfl, rfl, id⟩
  | false =>
      rw [apply_of_changed h]
      exact ⟨rfl, rfl, rfl, fun _ => rfl⟩

/-- The application's section neither uses the sensor nor asks for changes of life. -/
theorem apply_sensor_requests (candidate : Object) (a : Custom) (c : Cycle S H) :
    (apply candidate a c).cycle.sensor = c.sensor ∧
      (apply candidate a c).cycle.requests = c.requests := by
  cases h : unchanged a.settings candidate with
  | true => rw [apply_of_unchanged h]; exact ⟨rfl, rfl⟩
  | false => rw [apply_of_changed h]; exact ⟨rfl, rfl⟩

/-- The application's section does not depend on the reply, and of the reply it changes
nothing but the flag. -/
theorem apply_reply (candidate : Object) (a : Custom) (c : Cycle S H) (r : Reply) :
    ∃ raised, apply candidate a { c with reply := r } =
      { apply candidate a c with
        cycle := { (apply candidate a c).cycle with reply := { r with raised } } } := by
  cases h : unchanged a.settings candidate with
  | true =>
      rw [apply_of_unchanged h, apply_of_unchanged h]
      exact ⟨r.raised, rfl⟩
  | false =>
      rw [apply_of_changed h, apply_of_changed h]
      exact ⟨true, rfl⟩

end Custom

end DeviceConfig
