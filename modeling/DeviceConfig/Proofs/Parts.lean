/-
The parts of the common section, each on its own.

A candidate is applied part by part.  Most of the parts concern neither the sensor nor one another:
they take the number that the candidate has for them, if it has one, and can at most make a
notification due.  What remains are the picture and the ports.  Both push to the sensor, the picture
first, so the ports find the sensor that the picture has left.
-/
import DeviceConfig.Proofs.Device
import DeviceConfig.Proofs.Requests

namespace DeviceConfig

variable {α S H : Type}

namespace Step

/-- A step ends with some value in some cycle, whatever its outcome. -/
def Ends (f : Step α S H) (a : α) (c : Cycle S H) (b : α) (c' : Cycle S H) : Prop :=
  (f a c).value = b ∧ (f a c).cycle = c'

theorem ends_nil (a : α) (c : Cycle S H) : Ends (all []) a c a c := ⟨rfl, rfl⟩

theorem Ends.cons {f : Step α S H} {rest : List (Step α S H)} {a b d : α} {c c' c'' : Cycle S H}
    (h : f.Ends a c b c') (h' : Ends (all rest) b c' d c'') : Ends (all (f :: rest)) a c d c'' := by
  obtain ⟨rfl, rfl⟩ := h
  exact h'

theorem ends_of_eq {f : Step α S H} {a b : α} {c c' : Cycle S H} {v : Verdict}
    (h : f a c = ⟨b, c', v⟩) : f.Ends a c b c' := by
  unfold Ends
  rw [h]
  exact ⟨rfl, rfl⟩

end Step

/-- Whatever was stored before, the new value is stored afterwards. -/
theorem Step.store_eq [BEq α] [LawfulBEq α] (new a : α) (c : Cycle S H) :
    ∃ reply, Step.store new a c = ⟨new, { c with reply }, .ok ()⟩ := by
  unfold store
  by_cases h : a = new
  · subst h
    exact ⟨c.reply, if_pos BEq.rfl⟩
  · exact ⟨c.reply.raise, if_neg fun hbeq => h (eq_of_beq hbeq)⟩

/-- The inference section with the number of a candidate, if it has one. -/
def Inference.restated (candidate : Object) (a : Inference) : Inference :=
  ⟨(Object.word? candidate "number_of_iterations").getD a.iterations⟩

theorem Inference.apply_restates (candidate : Object) (a : Inference) (c : Cycle S H) :
    ∃ reply, apply candidate a c = ⟨a.restated candidate, { c with reply }, .ok ()⟩ := by
  unfold apply restated
  cases Object.word? candidate "number_of_iterations" with
  | none => exact ⟨c.reply, rfl⟩
  | some n => exact Step.store_eq ⟨n⟩ a c

/-- The codec section with the format of a candidate, if it has one. -/
def Codec.restated (candidate : Object) (a : Codec) : Codec :=
  ⟨(Object.word? candidate "format").or a.format⟩

theorem Codec.apply_restates (candidate : Object) (a : Codec) (c : Cycle S H) :
    ∃ reply, apply candidate a c = ⟨a.restated candidate, { c with reply }, .ok ()⟩ := by
  unfold apply restated
  cases Object.word? candidate "format" with
  | none => exact ⟨c.reply, rfl⟩
  | some n => exact Step.store_eq ⟨some n⟩ a c

namespace Common

/-- The section with what a candidate says of the parts that the sensor does not know. -/
def restated (candidate : Object) (a : Common) : Common :=
  { a with
    inferencePerMessage :=
      (Object.word? candidate "number_of_inference_per_message").or a.inferencePerMessage
    inference := (Object.object? candidate "inference_settings").elim a.inference
      (Inference.restated · a.inference)
    codec := (Object.object? candidate "codec_settings").elim a.codec (Codec.restated · a.codec) }

theorem applyInferencePerMessage_eq (candidate : Object) (a : Common) (c : Cycle S H) :
    ∃ reply, applyInferencePerMessage candidate a c =
      ⟨{ a with inferencePerMessage :=
          (Object.word? candidate "number_of_inference_per_message").or a.inferencePerMessage },
        { c with reply }, .ok ()⟩ := by
  unfold applyInferencePerMessage
  cases Object.word? candidate "number_of_inference_per_message" with
  | none => exact ⟨c.reply, rfl⟩
  | some n =>
      obtain ⟨reply, hstore⟩ := Step.store_eq (some n) a.inferencePerMessage c
      refine ⟨reply, ?_⟩
      simp only [Step.whenSome, Step.on, hstore]
      rfl

/-- A part whose step is told by what becomes of the part. -/
theorem applyPart_eq {β : Type} (candidate : Object) (name : String) (part : Common → β)
    (put : β → Common → Common) {f : Object → Step β S H} {restate : Object → β → β}
    (hf : ∀ fragment b c, ∃ reply, f fragment b c =
      ⟨restate fragment b, { c with reply }, .ok ()⟩)
    (hput : ∀ a, put (part a) a = a) (a : Common) (c : Cycle S H) :
    ∃ reply, applyPart candidate name part put f a c =
      ⟨put ((Object.object? candidate name).elim (part a) (restate · (part a))) a,
        { c with reply }, .ok ()⟩ := by
  unfold applyPart
  cases Object.object? candidate name with
  | none =>
      exact ⟨c.reply, congrArg (fun a => (⟨a, c, .ok ()⟩ : Progress Common S H)) (hput a).symm⟩
  | some fragment =>
      obtain ⟨reply, hfragment⟩ := hf fragment (part a) c
      refine ⟨reply, ?_⟩
      simp only [Step.whenSome, Step.on, hfragment, Option.elim_some]

/-- The attempt at the picture, if the candidate has one. -/
def pictureAttempt [Sensor S] (candidate : Object) (a : Common) (c : Cycle S H) :
    Option (Progress Picture S H) :=
  (Object.object? candidate "pq_settings").map fun fragment =>
    Picture.apply fragment a.picture c

/-- The attempt at the ports, if the candidate has them. -/
def portsAttempt [Sensor S] (candidate : Object) (a : Common) (c : Cycle S H) :
    Option (Progress Ports S H) :=
  (Object.object? candidate "port_settings").map fun fragment => Ports.apply fragment a.ports c

/-- A part that is attempted leaves what the attempt leaves, and otherwise it stays as it is. -/
theorem applyPart_ends {β : Type} (candidate : Object) (name : String) (part : Common → β)
    (put : β → Common → Common) (f : Object → Step β S H) (hput : ∀ a, put (part a) a = a)
    (a : Common) (c : Cycle S H) :
    let attempt := (Object.object? candidate name).map fun fragment => f fragment (part a) c
    Step.Ends (applyPart candidate name part put f) a c
      (put ((attempt.map (·.value)).getD (part a)) a) ((attempt.map (·.cycle)).getD c) := by
  unfold applyPart
  cases Object.object? candidate name with
  | none => exact ⟨(hput a).symm, rfl⟩
  | some fragment => exact ⟨rfl, rfl⟩

/-- **What is admitted is applied part by part.**  The picture is attempted in the cycle that there
is, but for what the reply says, and the ports in the one that the picture leaves. -/
theorem applyAdmitted_parts [Sensor S] (candidate : Object) (a : Common) (c : Cycle S H) :
    ∃ reply,
      let picture := a.pictureAttempt candidate { c with reply }
      let between := (picture.map (·.cycle)).getD { c with reply }
      let ports := a.portsAttempt candidate between
      let after := applyAdmitted candidate a c
      after.value = { a.restated candidate with
          picture := (picture.map (·.value)).getD a.picture
          ports := (ports.map (·.value)).getD a.ports } ∧
        after.cycle.sensor = ((ports.map (·.cycle)).getD between).sensor := by
  obtain ⟨reply, hfirst⟩ := applyInferencePerMessage_eq candidate a c
  let first : Common := { a with inferencePerMessage :=
    (Object.word? candidate "number_of_inference_per_message").or a.inferencePerMessage }
  obtain ⟨reply', hsecond⟩ := applyPart_eq candidate "inference_settings" inference
    (fun new a => { a with inference := new }) Inference.apply_restates (fun _ => rfl) first
    { c with reply }
  let second : Common := { a.restated candidate with codec := a.codec }
  let picture := a.pictureAttempt candidate { c with reply := reply' }
  let between := (picture.map (·.cycle)).getD { c with reply := reply' }
  let third : Common := { second with picture := (picture.map (·.value)).getD a.picture }
  let ports := a.portsAttempt candidate between
  let last := (ports.map (·.cycle)).getD between
  let fourth : Common := { third with ports := (ports.map (·.value)).getD a.ports }
  obtain ⟨reply'', hfifth⟩ := applyPart_eq candidate "codec_settings" codec
    (fun new a => { a with codec := new }) Codec.apply_restates (fun _ => rfl) fourth last
  have hthird : Step.Ends _ second { c with reply := reply' } third between :=
    applyPart_ends candidate "pq_settings" Common.picture (fun new a => { a with picture := new })
      Picture.apply (fun _ => rfl) second _
  have hfourth : Step.Ends _ third between fourth last :=
    applyPart_ends candidate "port_settings" Common.ports (fun new a => { a with ports := new })
      Ports.apply (fun _ => rfl) third between
  obtain ⟨hvalue, hcycle⟩ : Step.Ends (applyAdmitted candidate) a c _ _ :=
    .cons (Step.ends_of_eq hfirst) (.cons (Step.ends_of_eq hsecond) (.cons hthird
      (.cons hfourth (.cons (Step.ends_of_eq hfifth) (Step.ends_nil _ _)))))
  refine ⟨reply', hvalue, ?_⟩
  show (applyAdmitted candidate a c).cycle.sensor = last.sensor
  rw [hcycle]

/-- **The section is applied part by part**, and the log level with it. -/
theorem apply_parts [Sensor S] (candidate : Object) (a : Common) (c : Cycle S H) :
    let given := admitted c.state candidate
    ∃ c' : Cycle S H, c'.sensor = c.sensor ∧
      let picture := a.pictureAttempt given c'
      let between := (picture.map (·.cycle)).getD c'
      let ports := a.portsAttempt given between
      let after := apply candidate a c
      after.value = { a.restated given with
          logLevel := (a.newLogLevel? candidate).getD a.logLevel
          picture := (picture.map (·.value)).getD a.picture
          ports := (ports.map (·.value)).getD a.ports } ∧
        after.cycle.sensor = ((ports.map (·.cycle)).getD between).sensor := by
  intro given
  obtain ⟨reply, happly⟩ := apply_eq candidate a c
  obtain ⟨reply', hvalue, hsensor⟩ := applyAdmitted_parts given
    { a with logLevel := (a.newLogLevel? candidate).getD a.logLevel }
    { c with reply, requests := a.asked candidate c.requests }
  refine ⟨{ c with reply := reply', requests := a.asked candidate c.requests }, rfl, ?_, ?_⟩
  · rw [happly]
    exact hvalue
  · rw [happly]
    exact hsensor

/-- What a state of the device admits of a candidate is in the candidate. -/
theorem field?_of_admitted {state : ProcessState} {candidate : Object} {name : String} {v : Json}
    (h : Object.field? (admitted state candidate) name = some v) :
    Object.field? candidate name = some v := by
  unfold admitted at h
  split at h
  · rw [Object.field?_eraseAll] at h
    split at h
    · cases h
    · exact h
  · exact h

theorem object?_of_admitted {state : ProcessState} {candidate fragment : Object} {name : String}
    (h : Object.object? (admitted state candidate) name = some fragment) :
    Object.object? candidate name = some fragment := by
  obtain ⟨v, hv, hobject⟩ := Option.bind_eq_some_iff.mp h
  exact Option.bind_eq_some_iff.mpr ⟨v, field?_of_admitted hv, hobject⟩

/-- What holds of the picture, the ports and the sensor still holds after a candidate has been
applied, if it is kept by what is done to the picture, and then by what is done to the ports. -/
theorem apply_sections [Sensor S] {R : Picture → Ports → S → Prop} {candidate : Object}
    {a : Common} {c : Cycle S H} (hbefore : R a.picture a.ports c.sensor)
    (hpicture : ∀ (fragment : Object) (c' : Cycle S H),
      Object.object? candidate "pq_settings" = some fragment → c'.sensor = c.sensor →
        let after := Picture.apply fragment a.picture c'
        R after.value a.ports after.cycle.sensor)
    (hports : ∀ (fragment : Object) (picture : Picture) (c' : Cycle S H),
      Object.object? candidate "port_settings" = some fragment → R picture a.ports c'.sensor →
        let after := Ports.apply fragment a.ports c'
        R picture after.value after.cycle.sensor) :
    let after := apply candidate a c
    R after.value.picture after.value.ports after.cycle.sensor := by
  intro after
  obtain ⟨c', hsensor, hvalue, hafter⟩ := apply_parts candidate a c
  let picture := a.pictureAttempt (admitted c.state candidate) c'
  let between := (picture.map (·.cycle)).getD c'
  have hbetween : R ((picture.map (·.value)).getD a.picture) a.ports between.sensor := by
    simp only [between, picture, pictureAttempt]
    cases hfragment : Object.object? (admitted c.state candidate) "pq_settings" with
    | none => exact hsensor ▸ hbefore
    | some fragment => exact hpicture fragment c' (object?_of_admitted hfragment) hsensor
  simp only [after]
  rw [hvalue, hafter]
  simp only [portsAttempt]
  cases hfragment : Object.object? (admitted c.state candidate) "port_settings" with
  | none => exact hbetween
  | some fragment => exact hports fragment _ between (object?_of_admitted hfragment) hbetween

end Common

/-! ### The common section of a text -/

namespace Document

/-- A common section that passes is applied, and nothing else concerns the section and the
sensor. -/
theorem update_common [Sensor S] [Hook H] {d : Document} {text : String} {settings : Object}
    (h : d.sectionOf? "common_settings" text = some settings) (state : ProcessState)
    (k : Collaborators S H) :
    ∃ c : Cycle S H, c.sensor = k.sensor ∧ c.state = state ∧
      let after := Common.apply settings d.common c
      (d.update state text k).document.common = after.value ∧
        (d.update state text k).collaborators.sensor = after.cycle.sensor := by
  obtain ⟨candidate, htext, hverify, hsettings⟩ := sectionOf?_eq_some.mp h
  obtain ⟨-, -, hcommon, -, hsensor, -⟩ := update_attempts htext hverify state k
  rw [commonAttempt, hsettings] at hcommon hsensor
  exact ⟨(d.taken candidate).cycle state k, rfl, rfl, hcommon, hsensor⟩

/-- What holds of the common section and the sensor still holds after an update, if it is kept by
applying a section that passes. -/
theorem update_sections [Sensor S] [Hook H] {R : Common → S → Prop} {d : Document} {text : String}
    {k : Collaborators S H} (state : ProcessState) (hbefore : R d.common k.sensor)
    (hsection : ∀ (candidate settings : Object) (c : Cycle S H),
      Object.ofText? text = some candidate → (d.verify candidate).1 = .ok () →
        Object.object? candidate "common_settings" = some settings → c.sensor = k.sensor →
          let after := Common.apply settings d.common c
          R after.value after.cycle.sensor) :
    let u := d.update state text k
    R u.document.common u.collaborators.sensor := by
  intro u
  cases hfound : d.sectionOf? "common_settings" text with
  | none =>
      obtain ⟨hcommon, hsensor⟩ := (update_of_sectionOf?_none hfound state k).1 rfl
      rw [hcommon, hsensor]
      exact hbefore
  | some settings =>
      obtain ⟨candidate, htext, hverify, hsettings⟩ := sectionOf?_eq_some.mp hfound
      obtain ⟨c, hc, -, hcommon, hsensor⟩ := update_common hfound state k
      rw [hcommon, hsensor]
      exact hsection candidate settings c htext hverify hsettings hc

end Document

end DeviceConfig
