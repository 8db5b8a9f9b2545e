/-
What a running device does not refuse would have changed nothing.

While the device runs, the fields of the stream are left out.  That is answered with a refusal,
unless each of them that is there shows what the document shows of it.  The refusal is decided on
what is shown, and an application goes by what it reads; so the two have to be brought together
for every way in which a part is written.

The parts are followed through a whole application, as it is in an idle device.  None of them
changes, provided that the sensor accepts everything: register writes are kept as far as the
sensor takes them, so one that it refuses would be missing from the list.
-/
import DeviceConfig.Proofs.Checks
import DeviceConfig.Proofs.Document
import DeviceConfig.Proofs.Echo
import DeviceConfig.Proofs.Steps

namespace DeviceConfig

variable {α β S H : Type}

/-! ### Sensors that accept everything -/

/-- The sensor accepts everything, now and after whatever else it will have accepted. -/
def Sensor.Willing [Sensor S] (s : S) : Prop :=
  ∀ (earlier : List Property) (p : Property),
    (Sensor.write (earlier.foldl (fun s q => (Sensor.write s q).2) s) p).1 = .ok ()

theorem Sensor.Willing.next [Sensor S] {s : S} (h : Willing s) (p : Property) :
    Willing (Sensor.write s p).2 := fun earlier q => h (p :: earlier) q

/-- A sensor that takes everything and reports nothing. -/
structure Undemanding where

namespace Undemanding

instance : Sensor Undemanding where
  write s _ := (.ok (), s)
  read _ _ := none

theorem willing (s : Undemanding) : Sensor.Willing s := fun _ _ => rfl

end Undemanding

namespace Cycle

theorem push_of_willing [Sensor S] {c : Cycle S H} (h : Sensor.Willing c.sensor) (p : Property)
    (failure : String) :
    c.push p failure = (.ok (), { c with sensor := (Sensor.write c.sensor p).2 }) :=
  push_of_taken (Prod.ext (h [] p) rfl) failure

/-- Nothing that is done to a sensor makes it less willing. -/
theorem willing_frame [Sensor S] :
    Frame fun c c' : Cycle S H => Sensor.Willing c.sensor → Sensor.Willing c'.sensor where
  refl _ h := h
  trans h h' hc := h' (h hc)
  raise _ h := h
  push p failure c h := by
    rw [push_snd]
    exact h.next p

end Cycle

namespace Step

/-- What is true of a value stays true of it, and a willing sensor stays willing. -/
def Keeps [Sensor S] (P : α → Prop) (a : α) (c : Cycle S H) (a' : α) (c' : Cycle S H) : Prop :=
  Sensor.Willing c.sensor → P a → P a' ∧ Sensor.Willing c'.sensor

section Keeps

variable [Sensor S] {P : α → Prop}

theorem keeps_course (P : α → Prop) : Course (Keeps P : α → Cycle S H → _) where
  refl _ _ hc ha := ⟨ha, hc⟩
  trans h h' hc ha := h' (h hc ha).2 (h hc ha).1

/-- A step on a part keeps what is true of the whole for as long as something is true of the
part. -/
theorem keeps_on {Q : β → Prop} {f : Step β S H} (hf : Leads (Keeps Q) f) {part : α → β}
    {put : β → α → α} (hpart : ∀ a, P a → Q (part a))
    (hput : ∀ a b, P a → Q b → P (put b a)) : Leads (Keeps P) (on part put f) := by
  intro a c hc ha
  obtain ⟨hb, hc'⟩ := hf (part a) c hc (hpart a ha)
  exact ⟨hput a _ ha hb, hc'⟩

theorem keeps_of_within {f : Step α S H}
    (hf : Within (fun c c' => Sensor.Willing c.sensor → Sensor.Willing c'.sensor) f) :
    Leads (Keeps fun _ => True) f := fun a c hc _ => ⟨trivial, hf a c hc⟩

theorem keeps_renew {same : α → Bool} {new : α → α}
    (h : ∀ a, P a → same a = true ∨ P (new a)) : Leads (S := S) (H := H) (Keeps P)
      (renew same new) := by
  intro a c hc ha
  unfold renew
  split
  · exact ⟨ha, hc⟩
  · rename_i hsame
    exact ⟨(h a ha).resolve_left hsame, hc⟩

theorem keeps_store [BEq α] {new : α} (h : P new) :
    Leads (S := S) (H := H) (Keeps P) (store new) :=
  keeps_renew (P := P) (fun _ _ => .inr h)

/-- A willing sensor takes what is pushed. -/
theorem afterPush_of_willing {c : Cycle S H} (hc : Sensor.Willing c.sensor) (p : Property)
    (failure : String) (taken : Step α S H) (a : α) :
    afterPush p failure taken a c = taken a { c with sensor := (Sensor.write c.sensor p).2 } := by
  rw [afterPush, c.push_of_willing hc]

theorem keeps_afterPush {p : Property} {failure : String} {taken : Step α S H}
    (h : Leads (Keeps P) taken) : Leads (Keeps P) (afterPush p failure taken) := by
  intro a c hc ha
  rw [afterPush_of_willing hc]
  exact h a _ (hc.next p) ha

end Keeps

end Step

/-! ### The picture section -/

section Parts

variable [Sensor S]

theorem Scalar.apply_keeps {known : Scalars} {s : Scalar}
    (hkind : ∀ p, known.get? s = some p → p.key = s.key) {candidate : Object} {v : Json}
    (hv : Object.field? candidate s.field = some v) (h : v.same (s.toJson known) = true) :
    Step.Leads (Step.Keeps (· = known)) (s.apply candidate : Step Scalars S H) := by
  unfold apply
  rw [Object.double?_of_field? hv]
  unfold toJson at h
  cases hknown : known.get? s with
  | none =>
      rw [hknown] at h
      rw [Json.eq_null_of_same h]
      exact (Step.keeps_course _).skip
  | some p =>
      rw [hknown] at h
      rcases double?_of_same (hkind p hknown) h with hnone | ⟨x, hx, hequal⟩
      · rw [hnone]
        exact (Step.keeps_course _).skip
      · rw [hx]
        show Step.Leads _ (s.push (s.property x))
        rw [push_eq]
        refine Step.keeps_afterPush (Step.keeps_renew fun known' hsame => .inl ?_)
        rw [hsame, hknown]
        exact hequal

theorem Structured.apply_keeps {s : Structured} {a : s.Value} (hlisted : s.Listed a)
    {fragment : Object}
    (h : (Json.object fragment).same (s.description.toJson (some a)) = true) :
    Step.Leads (Step.Keeps (· = some a))
      (s.apply fragment : Step (Option s.Value) S H) := by
  have hpush : Step.Leads (Step.Keeps (· = some a))
      (s.push (s.description.merged fragment (some a)) : Step (Option s.Value) S H) := by
    rw [push_eq]
    refine Step.keeps_afterPush (Step.keeps_renew fun known hknown => ?_)
    rw [hknown]
    exact (s.merged_of_same hlisted h).symm.imp id (congrArg some)
  rintro known c hc rfl
  exact hpush (some a) c hc rfl

namespace RegisterWrite

/-- A willing sensor takes every write that is described. -/
theorem pushAll_of_willing :
    ∀ {entries : List Json} {writes : List Fitting}, entries.map ofJson? = writes.map some →
      ∀ (taken : List Fitting) (c : Cycle S H), Sensor.Willing c.sensor →
        (Step.all (entries.map push) taken c).value = taken ++ writes := by
  intro entries
  induction entries with
  | nil =>
      intro writes h taken c _
      obtain rfl : writes = [] := by simpa using h.symm
      exact (List.append_nil taken).symm
  | cons v rest ih =>
      intro writes h taken c hc
      cases writes with
      | nil => cases h
      | cons r writes =>
          obtain ⟨hv, hrest⟩ : ofJson? v = some r ∧ rest.map ofJson? = writes.map some := by
            simpa using h
          let sensor := (Sensor.write c.sensor ⟨.registerAccess, r.val⟩).2
          have hpush : push v taken c = ⟨taken ++ [r], { c with sensor }, .ok ()⟩ := by
            rw [push_eq hv, Step.afterPush_of_willing hc]
            rfl
          rw [List.map_cons, Step.all_cons_of_ok hpush, ih hrest _ _ (hc.next _),
            List.append_assoc]
          rfl

/-- What is kept of a list whose entries all describe writes is these writes. -/
theorem apply_of_willing {writes : List Fitting} {entries : List Json}
    (hlength : entries.length ≤ maxEntries) (h : entries.map ofJson? = writes.map some)
    (old : List Fitting) {c : Cycle S H} (hc : Sensor.Willing c.sensor) :
    (apply entries old c).value = writes := by
  show (Step.all ((entries.take maxEntries).map push) [] c).value = writes
  rw [List.take_of_length_le hlength, pushAll_of_willing h [] c hc, List.nil_append]

theorem apply_keeps {writes : List Fitting} {entries : List Json}
    (hlength : entries.length ≤ maxEntries) (h : entries.map ofJson? = writes.map some) :
    Step.Leads (Step.Keeps (· = writes)) (apply entries : Step (List Fitting) S H) :=
  fun old c hc _ =>
    ⟨apply_of_willing hlength h old hc, apply_within Cycle.willing_frame entries old c hc⟩

end RegisterWrite

end Parts

namespace Picture

/-- Every structured property is known, and whatever is held is of its own kind: a scalar is the
property that it is held for, and the temperature of a preset is one that presets have. -/
structure Settled (p : Picture) : Prop where
  ownKind : ∀ s q, p.scalars.get? s = some q → q.key = s.key
  known : ∀ s, (p.structured.get? s).isSome
  listed : ∀ s v, p.structured.get? s = some v → s.Listed v

/-- The members of the section as it is shown. -/
def members (p : Picture) : List (String × Json) :=
  Scalar.all.map (fun s => (s.field, s.toJson p.scalars)) ++
    ("register_access", RegisterWrite.listToJson p.registers) ::
    Structured.all.map fun s => (s.field, s.description.toJson (p.structured.get? s))

theorem members_nodup (p : Picture) : (p.members.map Prod.fst).Nodup := by
  unfold members
  rw [List.map_append, List.map_cons, List.map_map, List.map_map]
  show (Scalar.all.map Scalar.field ++ "register_access" ::
    Structured.all.map Structured.field).Nodup
  decide

theorem scalar_mem (p : Picture) (s : Scalar) : (s.field, s.toJson p.scalars) ∈ p.members := by
  cases s <;> simp [members, Scalar.all]

theorem registers_mem (p : Picture) :
    ("register_access", RegisterWrite.listToJson p.registers) ∈ p.members := by
  simp [members]

theorem structured_mem (p : Picture) (s : Structured) :
    (s.field, s.description.toJson (p.structured.get? s)) ∈ p.members := by
  cases s <;> simp [members, Structured.all]

/-- A section that is what is shown of another has the same under each of its names. -/
theorem field?_of_same {p : Picture} {candidate : Object}
    (h : (Json.object candidate).same p.toJson = true) {name : String} {w : Json}
    (hw : (name, w) ∈ p.members) : ∃ v, Object.field? candidate name = some v ∧ v.same w = true :=
  Json.field?_of_same_ofMembers p.members_nodup h hw

/-- A section that is what is shown of another has the same register entries. -/
theorem entries_of_same {p : Picture} {candidate : Object}
    (h : (Json.object candidate).same p.toJson = true) {entries : List Json}
    (hentries : Object.array? candidate "register_access" = some entries) :
    Json.sameItems entries (p.registers.map fun r => r.val.toJson) = true := by
  obtain ⟨v, hv, hsame⟩ := field?_of_same h p.registers_mem
  obtain ⟨w, hw, hwentries⟩ := Option.bind_eq_some_iff.mp hentries
  obtain rfl := Option.some.inj (hv.symm.trans hw)
  cases v with
  | array items =>
      obtain rfl := Option.some.inj hwentries
      exact hsame
  | _ => cases hwentries

theorem apply_keeps [Sensor S] {p : Picture} (hp : p.Settled) {candidate : Object}
    (hreadable : Readable candidate) (h : (Json.object candidate).same p.toJson = true) :
    Step.Leads (Step.Keeps (· = p)) (apply candidate : Step Picture S H) := by
  refine (Step.keeps_course _).all fun f hf => ?_
  rcases List.mem_cons.mp hf with rfl | hf
  · have hall : Step.Leads (Step.Keeps (· = p.scalars))
        (Step.all (Scalar.all.map (Scalar.apply candidate)) : Step Scalars S H) := by
      refine (Step.keeps_course _).all fun f hf => ?_
      obtain ⟨s, -, rfl⟩ := List.mem_map.mp hf
      obtain ⟨v, hv, hsame⟩ := field?_of_same h (p.scalar_mem s)
      exact Scalar.apply_keeps (hp.ownKind s) hv hsame
    refine Step.keeps_on hall (fun _ ha => by rw [ha]) ?_
    rintro _ _ rfl rfl
    rfl
  rcases List.mem_cons.mp hf with rfl | hf
  · refine (Step.keeps_course _).whenSome fun entries hentries => ?_
    refine Step.keeps_on (RegisterWrite.apply_keeps (hreadable entries hentries).1
      (RegisterWrite.ofJson?_of_sameItems (entries_of_same h hentries))) (fun _ ha => by rw [ha]) ?_
    rintro _ _ rfl rfl
    rfl
  · obtain ⟨s, -, rfl⟩ := List.mem_map.mp hf
    refine (Step.keeps_course _).whenSome fun fragment hfragment => ?_
    obtain ⟨a, ha⟩ := Option.isSome_iff_exists.mp (hp.known s)
    obtain ⟨w, hw, hsame⟩ := field?_of_same h (p.structured_mem s)
    obtain rfl : w = .object fragment := by
      rw [Object.object?, hw] at hfragment
      cases w with
      | object members => exact congrArg Json.object (Option.some.inj hfragment)
      | _ => cases hfragment
    rw [ha] at hsame
    refine Step.keeps_on (Structured.apply_keeps (hp.listed s a ha) hsame)
      (fun _ hb => by rw [hb, ha]) ?_
    rintro _ _ rfl rfl
    rw [← ha, Slots.set_get?]

end Picture

/-! ### The other parts -/

theorem Ports.apply_keeps [Sensor S] {p : Ports} {candidate : Object}
    (h : (Json.object candidate).same p.toJson = true) :
    Step.Leads (Step.Keeps (· = p)) (apply candidate : Step Ports S H) := by
  rintro q c hc rfl
  rw [apply_eq]
  simp only [merge_of_same h, if_true]
  exact ⟨rfl, hc⟩

theorem Codec.apply_keeps [Sensor S] {a : Codec} {candidate : Object}
    (h : (Json.object candidate).same a.toJson = true) :
    Step.Leads (Step.Keeps (· = a)) (apply candidate : Step Codec S H) := by
  refine (Step.keeps_course _).whenSome fun n hn => Step.keeps_store ?_
  rw [word?_of_same h] at hn
  rw [← hn]

namespace Common

/-- The parts that belong to the running stream are the same in both sections. -/
structure SameStream (a b : Common) : Prop where
  picture : b.picture = a.picture
  ports : b.ports = a.ports
  codec : b.codec = a.codec
  inferencePerMessage : b.inferencePerMessage = a.inferencePerMessage

/-- A candidate that does not differ from what is shown is the same, if it is an object at all. -/
theorem same_of_differs {candidate : Object} {name : String} {current : Json}
    (h : differs candidate name current = false) {fragment : Object}
    (hfragment : Object.object? candidate name = some fragment) :
    (Json.object fragment).same current = true := by
  obtain ⟨v, hv, hobject⟩ := Option.bind_eq_some_iff.mp hfragment
  have hsame : v.same current = true := by
    simpa [differs, hv, bne, BEq.beq] using h
  cases v with
  | object members =>
      obtain rfl := Option.some.inj hobject
      exact hsame
  | _ => cases hobject

/-- What is left of a candidate does not change more of the stream than the candidate does. -/
theorem changesStream_admitted {a : Common} {candidate : Object}
    (h : a.changesStream candidate = false) (state : ProcessState) :
    a.changesStream (admitted state candidate) = false := by
  unfold admitted
  split
  · simp [changesStream, differs, Object.word?, Object.field?_eraseAll, streamFields]
  · exact h

theorem applyPart_keeps [Sensor S] {a : Common} {Q : β → Prop} {candidate : Object} {name : String}
    {part : Common → β} {put : β → Common → Common} {f : Object → Step β S H}
    (hf : ∀ fragment, Object.object? candidate name = some fragment →
      Step.Leads (Step.Keeps Q) (f fragment))
    (hpart : ∀ b, a.SameStream b → Q (part b))
    (hput : ∀ b x, a.SameStream b → Q x → a.SameStream (put x b)) :
    Step.Leads (Step.Keeps a.SameStream) (applyPart candidate name part put f) :=
  (Step.keeps_course _).whenSome fun fragment hfragment =>
    Step.keeps_on (hf fragment hfragment) hpart hput

theorem applyAdmitted_keeps [Sensor S] {a : Common} (ha : a.picture.Settled) {candidate : Object}
    (hreadable : Readable candidate) (h : a.changesStream candidate = false) :
    Step.Leads (Step.Keeps a.SameStream) (applyAdmitted candidate : Step Common S H) := by
  simp only [changesStream, Bool.or_eq_false_iff] at h
  obtain ⟨⟨⟨hpicture, hports⟩, hcodec⟩, hnumber⟩ := h
  refine (Step.keeps_course _).all fun f hf => ?_
  simp only [List.mem_cons, List.not_mem_nil, or_false] at hf
  rcases hf with rfl | rfl | rfl | rfl | rfl
  · refine (Step.keeps_course _).whenSome fun n hn => ?_
    have hsame : some n = a.inferencePerMessage := by simpa [hn] using hnumber
    refine Step.keeps_on (Step.keeps_store (P := (· = a.inferencePerMessage)) hsame)
      (fun _ hb => hb.inferencePerMessage) fun b x hb hx => { hb with inferencePerMessage := hx }
  · exact applyPart_keeps (fun fragment _ =>
      Step.keeps_of_within (Inference.apply_within Cycle.willing_frame fragment))
      (fun _ _ => trivial) fun b x hb _ => ⟨hb.picture, hb.ports, hb.codec, hb.inferencePerMessage⟩
  · exact applyPart_keeps (fun fragment hfragment =>
      Picture.apply_keeps ha (hreadable fragment hfragment) (same_of_differs hpicture hfragment))
      (fun _ hb => hb.picture) fun b x hb hx => { hb with picture := hx }
  · exact applyPart_keeps (fun fragment hfragment =>
      Ports.apply_keeps (same_of_differs hports hfragment))
      (fun _ hb => hb.ports) fun b x hb hx => { hb with ports := hx }
  · exact applyPart_keeps (fun fragment hfragment =>
      Codec.apply_keeps (same_of_differs hcodec hfragment))
      (fun _ hb => hb.codec) fun b x hb hx => { hb with codec := hx }

/-- A candidate that shows the stream as it is does not change it, whatever else it changes. -/
theorem apply_keeps [Sensor S] {a : Common} (ha : a.picture.Settled) {candidate : Object}
    (hreadable : Readable candidate) (h : a.changesStream candidate = false) :
    Step.Leads (Step.Keeps a.SameStream) (apply candidate : Step Common S H) := by
  refine (Step.keeps_course _).all fun f hf => ?_
  simp only [List.mem_cons, List.not_mem_nil, or_false] at hf
  rcases hf with rfl | rfl | rfl | rfl <;> intro b c hc hb
  · obtain ⟨requests, hstate⟩ := requestState_eq candidate b c
    rw [hstate]
    exact ⟨hb, hc⟩
  · obtain ⟨logLevel, requests, reply, hlevel, -⟩ := applyLogLevel_eq candidate b c
    rw [hlevel]
    exact ⟨⟨hb.picture, hb.ports, hb.codec, hb.inferencePerMessage⟩, hc⟩
  · unfold refuse
    split <;> exact ⟨hb, hc⟩
  · exact applyAdmitted_keeps ha (hreadable.admitted c.state) (changesStream_admitted h c.state)
      b c hc hb

end Common

/-! ### The document -/

namespace Document

/-- **While the device runs, no change is dropped without a word.**  If a candidate that passes is
not answered with the refusal, then it would not have changed anything in the stream of an idle
device either, not even with a sensor that accepts everything. -/
theorem apply_unrefused_keeps {S' H' : Type} [Sensor S] [Sensor S'] {d : Document}
    (hsettled : d.common.picture.Settled) {candidate settings : Object}
    (hverify : (d.verify candidate).1 = .ok ())
    (hsettings : Object.object? candidate "common_settings" = some settings)
    (k : Collaborators S H)
    (hunrefused :
      (Common.apply settings d.common
        ((d.taken candidate).cycle .running k)).cycle.reply.answer ≠
          (.failedPrecondition, Common.refusal))
    (k' : Collaborators S' H') (hwilling : Sensor.Willing k'.sensor) :
    let idle := Common.apply settings d.common ((d.taken candidate).cycle .idle k')
    idle.value.picture = d.common.picture ∧ idle.value.ports = d.common.ports ∧
      idle.value.codec = d.common.codec ∧
      idle.value.inferencePerMessage = d.common.inferencePerMessage := by
  intro idle
  have hsame : d.common.changesStream settings = false := by
    rw [Common.apply_answer] at hunrefused
    cases hchanges : d.common.changesStream settings with
    | false => rfl
    | true => exact absurd (if_pos ⟨rfl, hchanges⟩) hunrefused
  have hkeeps := Common.apply_keeps (S := S') (H := H') hsettled
    (readable_of_passes hverify hsettings) hsame
  obtain ⟨⟨hpicture, hports, hcodec, hnumber⟩, -⟩ :=
    hkeeps d.common ((d.taken candidate).cycle .idle k') hwilling ⟨rfl, rfl, rfl, rfl⟩
  exact ⟨hpicture, hports, hcodec, hnumber⟩

/-- A write of two bytes to a register. -/
def twoBytes : RegisterWrite.Fitting :=
  ⟨⟨.bits16, 2, 16, 4464⟩, by unfold RegisterWrite.Fits; decide⟩

/-- A document that has been loaded from a sensor, and that keeps a register write. -/
def registered : Document :=
  let d := Document.load Simulator.powerOn {}
  { d with common.picture.registers := [twoBytes] }

/-- A document that is told its own picture and ports, and a new log level. -/
def retold : Object :=
  .ofList [("log_level", .word 5), ("pq_settings", registered.common.picture.toJson),
    ("port_settings", registered.common.ports.toJson)]

/-- The request with it. -/
def retelling : Object := .ofList [("common_settings", .object retold)]

theorem settled_registered : registered.common.picture.Settled := by
  refine ⟨fun s q hq => ?_, fun s => ?_, fun s v hv => ?_⟩
  · have hread : registered.common.picture.scalars.get? s =
        Sensor.read Simulator.powerOn s.key :=
      Slots.get?_foldl_set (fun s : Scalar => Sensor.read Simulator.powerOn s.key) Scalar.all
        (by cases s <;> decide) .empty
    obtain ⟨v, -, rfl⟩ := Option.map_eq_some_iff.mp (hread.symm.trans hq)
    rfl
  · cases s <;> decide +kernel
  · cases s with
    | manualWhiteBalancePreset =>
        obtain rfl : ({} : WhiteBalancePreset) = v := Option.some.inj hv
        exact List.mem_cons_self
    | _ => trivial

theorem apply_unrefused_keeps_retold :
    let running := Common.apply retold registered.common
      ((registered.taken retelling).cycle .running obliging)
    let idle := Common.apply retold registered.common
      ((registered.taken retelling).cycle .idle ⟨Undemanding.mk, Indifferent.mk⟩)
    registered.common.picture.Settled ∧ (registered.verify retelling).1 = .ok () ∧
      Object.object? retelling "common_settings" = some retold ∧
      running.cycle.reply.answer ≠ (.failedPrecondition, Common.refusal) ∧
      Sensor.Willing Undemanding.mk ∧ idle.value.picture = registered.common.picture ∧
      idle.value.ports = registered.common.ports ∧ idle.value.logLevel = 5 := by
  have hverify : (registered.verify retelling).1 = .ok () := by decide +kernel
  have hunrefused : (Common.apply retold registered.common
      ((registered.taken retelling).cycle .running obliging)).cycle.reply.answer ≠
        (.failedPrecondition, Common.refusal) := by
    decide +kernel
  have hlevel : (Common.apply retold registered.common ((registered.taken retelling).cycle .idle
      ⟨Undemanding.mk, Indifferent.mk⟩)).value.logLevel = 5 := by
    decide +kernel
  obtain ⟨hpicture, hports, -⟩ := apply_unrefused_keeps settled_registered hverify rfl obliging
    hunrefused ⟨Undemanding.mk, Indifferent.mk⟩ (Undemanding.willing _)
  exact ⟨settled_registered, hverify, rfl, hunrefused, Undemanding.willing _, hpicture, hports,
    hlevel⟩

end Document

end DeviceConfig
