/-
Notice is given exactly when something has changed.

Each place where a section stores something has a test for a change next to it, and gives notice
if the test says so.  What has to be shown of all of them is the same: a step leaves its value and
the flag alone, or the value differs afterwards and the flag is raised.  Steps that follow one
another are no different, as long as none of them undoes the change of another, and none does, for
each has a slot of its own.

A refusal on account of the running stream gives notice too, although nothing changes.  A failure
is of no account here: a slot that the sensor has refused is a slot that is left alone.
-/
import DeviceConfig.Proofs.Mirror
import DeviceConfig.Proofs.Repetition
import DeviceConfig.Proofs.RoundTrip

namespace DeviceConfig

variable {α β ι S H : Type}

/-! ### Steps that tell of a change -/

namespace Step

/-- A value and the flag are left alone, or the value differs afterwards and the flag is raised. -/
def Tells (Differs : α → α → Prop) (a : α) (c : Cycle S H) (a' : α) (c' : Cycle S H) : Prop :=
  a' = a ∧ c'.reply.raised = c.reply.raised ∨ Differs a a' ∧ c'.reply.raised = true

variable {Differs : α → α → Prop}

theorem Tells.imp {Differs' : α → α → Prop} {a a' : α} {c c' : Cycle S H}
    (h : Tells Differs a c a' c') (himp : Differs a a' → Differs' a a') :
    Tells Differs' a c a' c' := h.imp_right (And.imp_left himp)

/-- A step that tells of a change gives notice of nothing else. -/
theorem Tells.raised_iff {a a' : α} {c c' : Cycle S H} (h : Tells Differs a c a' c')
    (hc : c.reply.raised = false) (ha : ¬ Differs a a) : c'.reply.raised = true ↔ Differs a a' := by
  rcases h with ⟨rfl, hsame⟩ | ⟨hdiffers, hraised⟩
  · simp [hsame, hc, ha]
  · simp [hdiffers, hraised]

theorem skip_tells : Leads (Tells (S := S) (H := H) Differs) skip := fun _ _ => .inl ⟨rfl, rfl⟩

theorem whenSome_tells {γ : Type} {f : γ → Step α S H} (hf : ∀ x, Leads (Tells Differs) (f x))
    (found : Option γ) : Leads (Tells Differs) (whenSome found f) := by
  cases found with
  | none => exact skip_tells
  | some x => exact hf x

/-- A step on a part tells of a change of the whole. -/
theorem on_tells {Parts : β → β → Prop} {f : Step β S H} (hf : Leads (Tells Parts) f)
    (part : α → β) (put : β → α → α) (hput : ∀ a, put (part a) a = a)
    (hdiffers : ∀ a b, Parts (part a) b → Differs a (put b a)) :
    Leads (Tells Differs) (on part put f) := by
  intro a c
  rcases hf (part a) c with ⟨hvalue, hraised⟩ | ⟨hvalue, hraised⟩
  · exact .inl ⟨(congrArg (put · a) hvalue).trans (hput a), hraised⟩
  · exact .inr ⟨hdiffers a _ hvalue, hraised⟩

theorem store_tells [BEq α] [LawfulBEq α] (new : α) :
    Leads (Tells (S := S) (H := H) (· ≠ ·)) (store new) := by
  intro old c
  unfold store
  split
  · exact .inl ⟨rfl, rfl⟩
  · rename_i h
    exact .inr ⟨fun heq => h (beq_iff_eq.mpr heq), rfl⟩

/-- A value that is renewed after a push differs if the test for it says so. -/
theorem afterPush_tells [Sensor S] (p : Property) (failure : String) (same : α → Bool)
    (new : α → α) {a : α} (hdiffers : same a = false → Differs a (new a)) (c : Cycle S H) :
    let after := afterPush p failure (renew same new) a c
    Tells Differs a c after.value after.cycle := by
  have hpush := congrArg Cycle.reply (c.push_snd p failure)
  unfold afterPush
  split <;> rename_i c' heq <;> rw [heq] at hpush
  · unfold renew
    cases hsame : same a with
    | true => exact .inl ⟨rfl, congrArg Reply.raised hpush⟩
    | false => exact .inr ⟨hdiffers hsame, rfl⟩
  · exact .inl ⟨rfl, congrArg Reply.raised hpush⟩

/-- **Steps with a slot each tell of a change in any of the slots**, if no step undoes the change
that another one has made. -/
theorem all_tells {Differs : ι → α → α → Prop} {f : ι → Step α S H}
    (hown : ∀ i, Leads (Tells (Differs i)) (f i))
    (hother : ∀ {i j}, i ≠ j → ∀ a b c, Differs i a b → Differs i a (f j b c).value) :
    ∀ {slots : List ι}, slots.Nodup →
      Leads (Tells fun a a' => ∃ i ∈ slots, Differs i a a') (all (slots.map f)) := by
  have hkept : ∀ {i : ι} (slots : List ι), i ∉ slots →
      ∀ a b c, Differs i a b → Differs i a (all (slots.map f) b c).value := by
    intro i slots hi a
    have hcourse : Course fun b (_ : Cycle S H) b' _ => Differs i a b → Differs i a b' :=
      ⟨fun _ _ => id, fun h h' => h' ∘ h⟩
    refine hcourse.all fun g hg => ?_
    obtain ⟨j, hj, rfl⟩ := List.mem_map.mp hg
    exact hother (fun heq : i = j => hi (heq ▸ hj)) a
  intro slots hslots
  induction slots with
  | nil => exact skip_tells
  | cons i rest ih =>
      obtain ⟨hi, hrest⟩ := List.nodup_cons.mp hslots
      intro a c
      let p := f i a c
      let q := all (rest.map f) p.value p.cycle
      show Tells _ a c q.value q.cycle
      have hlater : Tells _ p.value p.cycle q.value q.cycle := ih hrest p.value p.cycle
      rcases hown i a c with ⟨hvalue, hraised⟩ | ⟨hdiffers, hraised⟩
      · replace hvalue : p.value = a := hvalue
        rw [hvalue] at hlater
        rcases hlater with ⟨hsame, hlowered⟩ | ⟨⟨j, hj, hdiffers⟩, hnotice⟩
        · exact .inl ⟨hsame, hlowered.trans hraised⟩
        · exact .inr ⟨⟨j, List.mem_cons_of_mem i hj, hdiffers⟩, hnotice⟩
      · refine .inr ⟨⟨i, List.mem_cons_self, hkept rest hi a p.value p.cycle hdiffers⟩, ?_⟩
        rcases hlater with ⟨-, hsame⟩ | ⟨-, hnotice⟩
        · exact hsame.trans hraised
        · exact hnotice

end Step

/-! ### The picture section -/

/-- The pushes of a list of entries give no notice themselves. -/
theorem RegisterWrite.reply_pushAll [Sensor S] (entries : List Json) (taken : List Fitting)
    (c : Cycle S H) : (Step.all (entries.map push) taken c).cycle.reply = c.reply := by
  have hcourse : Step.Course fun (_ : List Fitting) (c : Cycle S H) _ c' => c'.reply = c.reply :=
    ⟨fun _ _ => rfl, fun h h' => h'.trans h⟩
  refine hcourse.all (fun f hf => ?_) taken c
  obtain ⟨v, -, rfl⟩ := List.mem_map.mp hf
  intro taken c
  unfold push
  split
  · rfl
  · rename_i r _
    have hpush := congrArg Cycle.reply (c.push_snd ⟨.registerAccess, r.val⟩ failure)
    split <;> rename_i heq <;> rw [heq] at hpush <;> exact hpush

theorem RegisterWrite.apply_tells [Sensor S] (entries : List Json) :
    Step.Leads (Step.Tells (S := S) (H := H) (· ≠ ·)) (apply entries) := by
  intro old c
  have hreply := reply_pushAll (entries.take maxEntries) [] c
  unfold apply
  simp only
  split
  · rename_i h
    exact .inl ⟨beq_iff_eq.mp h, congrArg Reply.raised hreply⟩
  · rename_i h
    exact .inr ⟨fun heq => h (beq_iff_eq.mpr heq.symm), rfl⟩

namespace Picture

/-- Two sections hold the same values. -/
structure Same (p q : Picture) : Prop where
  items : ∀ i : Item, (i.value? p == i.value? q) = true
  registers : p.registers = q.registers

theorem Proper.same_self {p : Picture} (hp : p.Proper) : p.Same p := by
  refine ⟨fun i => ?_, rfl⟩
  cases hvalue : i.value? p with
  | none => rfl
  | some q => exact Property.beq_self (hp i q hvalue)

/-- Two sections hold different values in the slot of a turn. -/
def Turn.Differs (p q : Picture) : Turn → Prop
  | item i => (i.value? p == i.value? q) = false
  | registers => p.registers ≠ q.registers

theorem Turn.Differs.not_same {p q : Picture} {t : Turn} (h : t.Differs p q) : ¬ p.Same q := by
  intro hsame
  cases t with
  | item i => exact Bool.false_ne_true (h.symm.trans (hsame.items i))
  | registers => exact h hsame.registers

/-- A slot that is left alone differs from others as before. -/
theorem Turn.Differs.of_held {p q q' : Picture} {t : Turn} (hheld : t.held q' = t.held q)
    (h : t.Differs p q) : t.Differs p q' := by
  cases t with
  | item i =>
      show (i.value? p == i.value? q') = false
      rw [show i.value? q' = i.value? q from hheld]
      exact h
  | registers =>
      show p.registers ≠ q'.registers
      rw [show q'.registers = q.registers from hheld]
      exact h

variable [Sensor S]

theorem Turn.apply_tells (candidate : Object) (t : Turn) :
    Step.Leads (Step.Tells (S := S) (H := H) fun p p' => t.Differs p p') (t.apply candidate) := by
  cases t with
  | registers =>
      show Step.Leads _ (applyRegisters candidate)
      unfold applyRegisters
      refine Step.whenSome_tells (fun entries => ?_) _
      exact Step.on_tells (RegisterWrite.apply_tells entries) _ _ (fun _ => rfl) fun _ _ h => h
  | item i =>
      intro p c
      rw [i.apply_eq]
      cases hasked : i.asked? p candidate with
      | none => exact Step.skip_tells p c
      | some q =>
          refine Step.afterPush_tells q i.failure _ _ (fun hsame => ?_) c
          show (i.value? p == i.value? (i.put q p)) = false
          rw [Item.value?_put (Item.key_of_asked? hasked)]
          exact hsame

/-- The picture section tells of every change of what it holds. -/
theorem apply_tells (candidate : Object) :
    Step.Leads (Step.Tells (S := S) (H := H) fun p p' => ¬ p.Same p') (apply candidate) := by
  intro p c
  have hturns := Step.all_tells (Turn.apply_tells (S := S) (H := H) candidate)
    (fun hne p p' c h => h.of_held (Turn.held_apply_of_ne hne p' c)) Turn.nodup_all p c
  rw [apply_turns]
  exact hturns.imp fun ⟨t, _, h⟩ => h.not_same

end Picture

/-! ### The other parts -/

theorem Ports.apply_tells [Sensor S] (candidate : Object) :
    Step.Leads (Step.Tells (S := S) (H := H) (· ≠ ·)) (apply candidate) := by
  intro p c
  simp only [apply_eq]
  by_cases h : p.merge candidate = p
  · rw [if_pos h]
    exact Step.skip_tells p c
  · rw [if_neg h]
    exact Step.afterPush_tells _ failure _ (fun _ => p.merge candidate) (fun _ => Ne.symm h) c

theorem Inference.apply_tells (candidate : Object) :
    Step.Leads (Step.Tells (S := S) (H := H) (· ≠ ·)) (apply candidate) := by
  unfold apply
  exact Step.whenSome_tells (fun n => Step.store_tells _) _

theorem Codec.apply_tells (candidate : Object) :
    Step.Leads (Step.Tells (S := S) (H := H) (· ≠ ·)) (apply candidate) := by
  unfold apply
  exact Step.whenSome_tells (fun n => Step.store_tells _) _

/-! ### The common section -/

namespace Common

/-- Two sections hold the same values. -/
structure Same (a b : Common) : Prop where
  state : a.state = b.state
  logLevel : a.logLevel = b.logLevel
  inferencePerMessage : a.inferencePerMessage = b.inferencePerMessage
  inference : a.inference = b.inference
  picture : a.picture.Same b.picture
  ports : a.ports = b.ports
  codec : a.codec = b.codec

theorem same_self {a : Common} (ha : a.picture.Proper) : a.Same a :=
  ⟨rfl, rfl, rfl, rfl, ha.same_self, rfl, rfl⟩

theorem applyPart_tells {β : Type} {Parts : β → β → Prop} {f : Object → Step β S H}
    (hf : ∀ fragment, Step.Leads (Step.Tells Parts) (f fragment)) (candidate : Object)
    (name : String) (part : Common → β) (put : β → Common → Common)
    (hput : ∀ a, put (part a) a = a) {Differs : Common → Common → Prop}
    (hdiffers : ∀ a b, Parts (part a) b → Differs a (put b a)) :
    Step.Leads (Step.Tells Differs) (applyPart candidate name part put f) :=
  Step.whenSome_tells (fun fragment => Step.on_tells (hf fragment) part put hput hdiffers) _

/-- A part of the section that is applied on its own. -/
inductive Turn where
  | inferencePerMessage | inference | picture | ports | codec
  deriving DecidableEq

namespace Turn

/-- Every part, in the order in which they are applied. -/
def all : List Turn := [inferencePerMessage, inference, picture, ports, codec]

/-- What is done to a part. -/
def apply [Sensor S] (candidate : Object) : Turn → Step Common S H
  | inferencePerMessage => applyInferencePerMessage candidate
  | inference => applyPart candidate "inference_settings" Common.inference
      (fun new a => { a with inference := new }) Inference.apply
  | picture => applyPart candidate "pq_settings" Common.picture
      (fun new a => { a with picture := new }) Picture.apply
  | ports => applyPart candidate "port_settings" Common.ports
      (fun new a => { a with ports := new }) Ports.apply
  | codec => applyPart candidate "codec_settings" Common.codec
      (fun new a => { a with codec := new }) Codec.apply

/-- Two sections differ in a part. -/
def Differs (a b : Common) : Turn → Prop
  | inferencePerMessage => a.inferencePerMessage ≠ b.inferencePerMessage
  | inference => a.inference ≠ b.inference
  | picture => ¬ a.picture.Same b.picture
  | ports => a.ports ≠ b.ports
  | codec => a.codec ≠ b.codec

theorem Differs.not_same {a b : Common} {t : Turn} (h : t.Differs a b) : ¬ a.Same b := by
  intro hsame
  cases t with
  | inferencePerMessage => exact h hsame.inferencePerMessage
  | inference => exact h hsame.inference
  | picture => exact h hsame.picture
  | ports => exact h hsame.ports
  | codec => exact h hsame.codec

variable [Sensor S]

theorem apply_tells (candidate : Object) (t : Turn) :
    Step.Leads (Step.Tells (S := S) (H := H) fun a a' => t.Differs a a') (t.apply candidate) := by
  cases t with
  | inferencePerMessage =>
      refine Step.whenSome_tells (fun n => ?_) _
      exact Step.on_tells (Step.store_tells (some n)) _ _ (fun _ => rfl) fun _ _ h => h
  | inference => exact applyPart_tells Inference.apply_tells _ _ _ _ (fun _ => rfl) fun _ _ h => h
  | picture => exact applyPart_tells Picture.apply_tells _ _ _ _ (fun _ => rfl) fun _ _ h => h
  | ports => exact applyPart_tells Ports.apply_tells _ _ _ _ (fun _ => rfl) fun _ _ h => h
  | codec => exact applyPart_tells Codec.apply_tells _ _ _ _ (fun _ => rfl) fun _ _ h => h

/-- What is done to a part leaves the differences in all others. -/
theorem Differs.apply {t t' : Turn} (hne : t ≠ t') (candidate : Object) (a b : Common)
    (c : Cycle S H) (h : t.Differs a b) : t.Differs a (t'.apply candidate b c).value := by
  cases t' with
  | inferencePerMessage =>
      show t.Differs a (applyInferencePerMessage candidate b c).value
      unfold applyInferencePerMessage
      cases Object.word? candidate "number_of_inference_per_message" with
      | none => exact h
      | some n => cases t <;> first | exact h | exact absurd rfl hne
  | _ =>
      simp only [Turn.apply, applyPart]
      cases Object.object? candidate _ with
      | none => exact h
      | some fragment => cases t <;> first | exact h | exact absurd rfl hne

end Turn

theorem applyAdmitted_tells [Sensor S] (candidate : Object) :
    Step.Leads (Step.Tells (S := S) (H := H) fun a a' => ¬ a.Same a')
      (applyAdmitted candidate) := by
  intro a c
  have hturns := Step.all_tells (Turn.apply_tells (S := S) (H := H) candidate)
    (fun hne a b c h => h.apply hne candidate a b c) (by decide : Turn.all.Nodup) a c
  exact hturns.imp fun ⟨t, _, h⟩ => h.not_same

/-- A log level that is stored is a new one, and gives notice. -/
theorem applyLogLevel_tells (candidate : Object) (a : Common) (c : Cycle S H) :
    ∃ (logLevel : UInt32) (c' : Cycle S H),
      applyLogLevel candidate a c = ⟨{ a with logLevel }, c', .ok ()⟩ ∧ c'.state = c.state ∧
        (logLevel = a.logLevel ∧ c'.reply = c.reply ∨
          a.logLevel ≠ logLevel ∧ c'.reply.raised = true) := by
  unfold applyLogLevel
  cases Object.word? candidate "log_level" with
  | none => exact ⟨a.logLevel, c, rfl, rfl, .inl ⟨rfl, rfl⟩⟩
  | some w =>
      by_cases hw : w = a.logLevel
      · exact ⟨a.logLevel, c, if_pos hw, rfl, .inl ⟨rfl, rfl⟩⟩
      · exact ⟨w, _, if_neg hw, rfl, .inr ⟨Ne.symm hw, rfl⟩⟩

/-- The refusal gives notice, and nothing else happens. -/
theorem refuse_tells (candidate : Object) (a : Common) (c : Cycle S H) :
    ∃ c' : Cycle S H, refuse candidate a c = ⟨a, c', .ok ()⟩ ∧
      c'.reply.raised = (c.reply.raised || c.state = .running ∧ a.changesStream candidate) := by
  unfold refuse
  split
  · rename_i hdue
    exact ⟨_, rfl, by simp [hdue, Reply.setCode]⟩
  · rename_i hdue
    exact ⟨c, rfl, by simp [hdue]⟩

/-- The section stays the same, and only the refusal gives notice; or it differs afterwards, and
notice is given. -/
theorem apply_tells [Sensor S] (candidate : Object) (a : Common) (c : Cycle S H) :
    let after := apply candidate a c
    after.value = a ∧ after.cycle.reply.raised =
        (c.reply.raised || c.state = .running ∧ a.changesStream candidate) ∨
      ¬ a.Same after.value ∧ after.cycle.reply.raised = true := by
  intro after
  obtain ⟨logLevel, c', hlevel, hstate, hchange⟩ := applyLogLevel_tells candidate a
    (requestState candidate a c).cycle
  obtain ⟨c'', hrefuse, hraised⟩ := refuse_tells candidate { a with logLevel } c'
  have hrequested := requestState_asks candidate a c
  have hafter : after = applyAdmitted (admitted c''.state candidate) { a with logLevel } c'' := by
    simp only [after, apply]
    rw [Step.all_cons_of_ok hrequested]
    rw [hrequested] at hlevel
    rw [Step.all_cons_of_ok hlevel, Step.all_cons_of_ok hrefuse]
    rfl
  have hlast := applyAdmitted_tells (admitted c''.state candidate) { a with logLevel } c''
  have hkept := (applyAdmitted_state (admitted c''.state candidate) { a with logLevel } c'').2
  rw [hrequested] at hstate hchange
  rw [← hafter] at hlast hkept
  rw [hstate] at hraised
  rcases hchange with ⟨rfl, hreply⟩ | ⟨hnew, hnotice⟩
  · rcases hlast with ⟨hvalue, hsame⟩ | hdiffers
    · rw [hreply] at hraised
      exact .inl ⟨hvalue, hsame.trans hraised⟩
    · exact .inr hdiffers
  · refine .inr ⟨fun hsame => hnew (hsame.logLevel.trans hkept), ?_⟩
    rcases hlast with ⟨-, hsame⟩ | ⟨-, hnotice'⟩
    · rw [hsame, hraised, hnotice, Bool.true_or]
    · exact hnotice'

/-- The section answers with the refusal, whatever the reply has said before. -/
def AnswersRefusal [Sensor S] (candidate : Object) (a : Common) (c : Cycle S H) : Prop :=
  ∀ reply, (apply candidate a { c with reply }).cycle.reply.answer =
    (.failedPrecondition, refusal)

theorem answersRefusal_iff [Sensor S] (candidate : Object) (a : Common) (c : Cycle S H) :
    a.AnswersRefusal candidate c ↔ c.state = .running ∧ a.changesStream candidate := by
  simp only [AnswersRefusal, apply_answer]
  constructor
  · intro h
    by_contra hdue
    have hempty := h {}
    rw [if_neg hdue] at hempty
    exact absurd hempty nofun
  · intro hdue _
    rw [if_pos hdue]

/-- The section gives notice if it changes or refuses, and for nothing else. -/
theorem apply_raised_iff [Sensor S] (candidate : Object) {a : Common} (ha : a.picture.Proper)
    {c : Cycle S H} (hc : c.reply.raised = false) :
    let after := apply candidate a c
    after.cycle.reply.raised = true ↔ ¬ a.Same after.value ∨ a.AnswersRefusal candidate c := by
  intro after
  rw [answersRefusal_iff]
  rcases apply_tells candidate a c with ⟨hvalue, hraised⟩ | ⟨hdiffers, hraised⟩
  · rw [show after.value = a from hvalue, show after.cycle.reply.raised = _ from hraised, hc]
    simp [same_self ha]
  · simp [show after.cycle.reply.raised = true from hraised, after, hdiffers]

end Common

/-! ### The application's section -/

namespace Custom

/-- Two sections hold the same settings. -/
def Same (a b : Custom) : Prop := (Json.object a.settings == .object b.settings) = true

theorem unchanged_comm (old new : Object) : unchanged old new = unchanged new old :=
  Json.same_comm _ _

/-- Settings that are kept are not what was there, unless they are the same but for the stamp. -/
theorem not_same_kept {a : Custom} {candidate : Object}
    (h : unchanged a.settings candidate = false) (requestId : String) (v : Verdict) :
    ¬ a.Same ⟨kept requestId candidate v⟩ := by
  intro hsame
  have hunchanged := unchanged_of_same hsame
  rw [unchanged_kept, unchanged_comm, h] at hunchanged
  cases hunchanged

theorem apply_tells [Hook H] (candidate : Object) :
    Step.Leads (Step.Tells (S := S) (H := H) fun a a' => ¬ a.Same a') (apply candidate) := by
  intro a c
  cases h : unchanged a.settings candidate with
  | true =>
      rw [apply_of_unchanged h]
      exact .inl ⟨rfl, rfl⟩
  | false =>
      rw [apply_of_changed h]
      exact .inr ⟨not_same_kept h c.requestId _, rfl⟩

end Custom

/-! ### All sections -/

/-- **Notice is given exactly when something has changed.**  If none is due beforehand, a section
has made it due after a candidate has been applied if what the section holds differs from before.
In the common section the refusal makes it due too.  It does not matter what the sensor and the
application have taken or refused. -/
theorem raised_iff_changed [Sensor S] [Hook H] (candidate : Object) {c : Cycle S H}
    (hc : c.reply.raised = false) :
    (∀ a : Common, a.picture.Proper →
      let after := Common.apply candidate a c
      (after.cycle.reply.raised = true ↔
        ¬ a.Same after.value ∨ a.AnswersRefusal candidate c)) ∧
    (∀ a : Custom,
      let after := Custom.apply candidate a c
      (after.cycle.reply.raised = true ↔ ¬ a.Same after.value)) ∧
    (∀ a : Inference,
      let after := Inference.apply candidate a c
      (after.cycle.reply.raised = true ↔ a ≠ after.value)) ∧
    (∀ a : Picture, a.Proper →
      let after := Picture.apply candidate a c
      (after.cycle.reply.raised = true ↔ ¬ a.Same after.value)) ∧
    (∀ a : Ports,
      let after := Ports.apply candidate a c
      (after.cycle.reply.raised = true ↔ a ≠ after.value)) ∧
    (∀ a : Codec,
      let after := Codec.apply candidate a c
      (after.cycle.reply.raised = true ↔ a ≠ after.value)) := by
  refine ⟨fun a ha => Common.apply_raised_iff candidate ha hc, fun a => ?_, fun a => ?_,
    fun a ha => ?_, fun a => ?_, fun a => ?_⟩
  · exact (Custom.apply_tells candidate a c).raised_iff hc (not_not_intro (Json.same_self _))
  · exact (Inference.apply_tells candidate a c).raised_iff hc (not_not_intro rfl)
  · exact (Picture.apply_tells candidate a c).raised_iff hc (not_not_intro ha.same_self)
  · exact (Ports.apply_tells candidate a c).raised_iff hc (not_not_intro rfl)
  · exact (Codec.apply_tells candidate a c).raised_iff hc (not_not_intro rfl)

/-- A digital zoom that the sensor refuses changes nothing and gives no notice, and one that it
takes does both. -/
theorem raised_iff_changed_zoom :
    let candidate : Object := [("pq_settings", .object [("digital_zoom", .word 2)])]
    let a : Common := {}
    let refused := Common.apply candidate a (Document.cycle .idle Document.zoomless {})
    let taken := Common.apply candidate a (Document.cycle .idle Document.obliging {})
    a.picture.Proper ∧ refused.outcome ≠ .ok () ∧ refused.cycle.reply.raised = false ∧
      a.Same refused.value ∧ taken.cycle.reply.raised = true ∧ ¬ a.Same taken.value := by
  intro candidate a
  have hproper : a.picture.Proper := by
    rintro (s | s) q hq <;> cases hq
  have hrefused := (raised_iff_changed candidate
    (c := Document.cycle .idle Document.zoomless {}) rfl).1 a hproper
  have htaken := (raised_iff_changed candidate
    (c := Document.cycle .idle Document.obliging {}) rfl).1 a hproper
  have hidle : ¬ a.AnswersRefusal candidate (Document.cycle .idle Document.obliging {}) := by
    intro hanswers
    obtain ⟨hrunning, -⟩ := (Common.answersRefusal_iff candidate a _).mp hanswers
    cases hrunning
  have hsilent : (Common.apply candidate a
    (Document.cycle .idle Document.zoomless {})).cycle.reply.raised = false := by decide +kernel
  have hnotice : (Common.apply candidate a
    (Document.cycle .idle Document.obliging {})).cycle.reply.raised = true := by decide +kernel
  refine ⟨hproper, by decide +kernel, hsilent, ?_, hnotice, (htaken.mp hnotice).resolve_right hidle⟩
  by_contra hdiffers
  have hraised := hrefused.mpr (.inl hdiffers)
  rw [hsilent] at hraised
  cases hraised

end DeviceConfig
