/-
What an update writes to the sensor has been asked for.

A candidate asks a picture property to be something: a scalar to be the number that it has, a
structured property to be its fields merged over what is known.  The check of the candidate and
its application look at the same thing, although one comes long before the other.  Each property
has one step of its own, and no other step touches its slot, so when the step is reached the slot
is as it was when the candidate was checked.

So whatever is true of all that can be asked for is true of all that is written, and of all that
is held.  The sensor has no say in this: what it refuses has been written nevertheless, and what
it takes is what was asked for.
-/
import DeviceConfig.Proofs.Application
import DeviceConfig.Proofs.Lifecycle
import DeviceConfig.Proofs.Mirror
import DeviceConfig.Proofs.Requests

namespace DeviceConfig

variable {α S H K : Type}

/-! ### What is written -/

/-- What has been written between two states of a recorded sensor. -/
def Recorder.Pushes (Q : Property → Prop) (r r' : Recorder S) : Prop :=
  ∃ writes, r'.writes = r.writes ++ writes ∧ ∀ w ∈ writes, Q w.property

namespace Recorder.Pushes

variable {Q : Property → Prop}

theorem nothing {r r' : Recorder S} (h : r' = r) : Pushes Q r r' :=
  ⟨[], by rw [h, List.append_nil], nofun⟩

theorem trans {r r' r'' : Recorder S} (h : Pushes Q r r') (h' : Pushes Q r' r'') :
    Pushes Q r r'' := by
  obtain ⟨earlier, hr, hearlier⟩ := h
  obtain ⟨later, hr', hlater⟩ := h'
  refine ⟨earlier ++ later, by rw [hr', hr, List.append_assoc], fun w hw => ?_⟩
  rcases List.mem_append.mp hw with hw | hw
  · exact hearlier w hw
  · exact hlater w hw

theorem imp {Q' : Property → Prop} (h : ∀ q, Q q → Q' q) {r r' : Recorder S}
    (hr : Pushes Q r r') : Pushes Q' r r' := by
  obtain ⟨writes, hwrites, hQ⟩ := hr
  exact ⟨writes, hwrites, fun w hw => h w.property (hQ w hw)⟩

theorem write [Sensor S] {q : Property} (hq : Q q) (r : Recorder S) :
    Pushes Q r (Sensor.write r q).2 :=
  ⟨[⟨q, _⟩], rfl, fun w hw => by rwa [List.mem_singleton.mp hw]⟩

theorem course [Sensor S] : Sensor.Course Q (Pushes Q : Recorder S → Recorder S → Prop) :=
  ⟨fun _ => nothing rfl, trans, fun hq r => write hq r⟩

end Recorder.Pushes

namespace Picture

/-! ### One property -/

namespace Item

theorem forall_held {P : Property → Prop} {p : Picture} {s : Structured} :
    (∀ q, (structured s).value? p = some q → P q) ↔
      ∀ v, p.structured.get? s = some v → P (s.property v) := by
  constructor
  · intro h v hv
    exact h (s.property v) (congrArg (Option.map s.property) hv)
  · intro h q hq
    obtain ⟨v, hv, rfl⟩ := Option.map_eq_some_iff.mp hq
    exact h v hv

/-- The property is only written as it may be, and if the document holds something new, that is
as it may be too. -/
structure Commits (i : Item) (A : Property → Prop) (p : Picture) (r : Recorder S) (p' : Picture)
    (r' : Recorder S) : Prop where
  pushed : r.Pushes (fun q => q.key = i.key → A q) r'
  held : i.value? p' = i.value? p ∨ ∃ q, A q ∧ i.value? p' = some q

namespace Commits

variable {i : Item} {A : Property → Prop} {p p' : Picture} {r r' : Recorder S}

theorem refl (p : Picture) (r : Recorder S) : i.Commits A p r p r := ⟨.nothing rfl, .inl rfl⟩

theorem trans {p'' : Picture} {r'' : Recorder S} (h : i.Commits A p r p' r')
    (h' : i.Commits A p' r' p'' r'') : i.Commits A p r p'' r'' := by
  refine ⟨h.pushed.trans h'.pushed, ?_⟩
  rcases h'.held with hsame | hnew
  · rw [hsame]
    exact h.held
  · exact .inr hnew

theorem course : Step.Course fun p (c : Cycle (Recorder S) H) p' c' =>
    i.Commits A p c.sensor p' c'.sensor :=
  ⟨fun p c => refl p c.sensor, fun h h' => h.trans h'⟩

theorem imp {B : Property → Prop} (h : ∀ q, A q → B q) (hc : i.Commits A p r p' r') :
    i.Commits B p r p' r' :=
  ⟨hc.pushed.imp fun q (hq : q.key = i.key → A q) hkey => h q (hq hkey),
    hc.held.imp_right fun ⟨q, hq, hp⟩ => ⟨q, h q hq, hp⟩⟩

theorem unchanged (h : i.Commits (fun _ => False) p r p' r') : i.value? p' = i.value? p :=
  h.held.resolve_right fun ⟨_, hq, _⟩ => hq

/-- Nothing has become of the property. -/
theorem beside (hpushed : r.Pushes (fun q => q.key ≠ i.key) r')
    (hvalue : i.value? p' = i.value? p) : i.Commits A p r p' r' :=
  ⟨hpushed.imp fun _ hq hkey => absurd hkey hq, .inl hvalue⟩

end Commits

end Item

/-! ### Steps on the picture -/

section Steps

variable [Sensor S] {i : Item} {A : Property → Prop} {candidate : Object}

/-- A turn writes nothing but its own property. -/
theorem Turn.apply_pushes (candidate : Object) (t : Turn) (p : Picture)
    (c : Cycle (Recorder S) H) :
    c.sensor.Pushes (fun q => q.key = t.key) (t.apply candidate p c).cycle.sensor :=
  Recorder.Pushes.course.turn (fun _ hq => hq) p c

/-- In its own turn a property becomes what it is asked to be, or stays as it is. -/
theorem Item.apply_commits (i : Item) (candidate : Object) (p : Picture)
    (c : Cycle (Recorder S) H) :
    let after := (Turn.item i).apply candidate p c
    i.Commits (fun q => i.asked? p candidate = some q) p c.sensor after.value
      after.cycle.sensor := by
  intro after
  have hpushed : c.sensor.Pushes (fun q => i.asked? p candidate = some q) after.cycle.sensor :=
    Recorder.Pushes.course.item (fun _ hq => hq) c
  refine ⟨hpushed.imp ?_, ?_⟩
  · exact fun _ hq _ => hq
  simp only [after, i.apply_eq]
  cases hasked : i.asked? p candidate with
  | none => exact .inl rfl
  | some q =>
      rcases i.commit_value q p c with hsame | hnew
      · exact .inl (congrArg (fun p => i.value? p) hsame)
      · refine .inr ⟨q, rfl, ?_⟩
        rw [show (Step.whenSome (some q) i.commit p c).value = i.put q p from hnew]
        exact Item.value?_put (Item.key_of_asked? hasked) p

/-- In the turn of another nothing becomes of a property. -/
theorem Turn.apply_commits_of_ne {t : Turn} (ht : t ≠ .item i) (p : Picture)
    (c : Cycle (Recorder S) H) :
    let after := t.apply candidate p c
    i.Commits A p c.sensor after.value after.cycle.sensor := by
  have hkey : t.key ≠ (Turn.item i).key := fun h => ht (Turn.key_injective h)
  have hother : ∀ q : Property, q.key = t.key → q.key ≠ i.key := fun q hq => hq ▸ hkey
  exact .beside ((t.apply_pushes candidate p c).imp hother) (Turn.held_apply_of_ne ht.symm p c)

/-- The property finds its slot as it was at the beginning, since it has its turn once. -/
theorem Turn.all_commits {turns : List Turn} (hturns : turns.Nodup) :
    ∀ (p : Picture) (c : Cycle (Recorder S) H),
      let after := Step.all (turns.map (Turn.apply candidate)) p c
      i.Commits (fun q => i.asked? p candidate = some q) p c.sensor after.value
        after.cycle.sensor := by
  induction turns with
  | nil => exact fun p c => .refl p c.sensor
  | cons t rest ih =>
      rw [List.nodup_cons] at hturns
      intro p c
      let mid := t.apply candidate p c
      by_cases ht : t = .item i
      · subst ht
        refine (i.apply_commits candidate p c).trans
          (Item.Commits.course.all (fun f hf => ?_) mid.value mid.cycle)
        obtain ⟨t, hmem, rfl⟩ := List.mem_map.mp hf
        refine fun p c => Turn.apply_commits_of_ne ?_ p c
        rintro rfl
        exact hturns.1 hmem
      · have hbeside : i.Commits (fun _ => False) p c.sensor mid.value mid.cycle.sensor :=
          Turn.apply_commits_of_ne ht p c
        have hrest := ih hturns.2 mid.value mid.cycle
        rw [Item.asked?_congr hbeside.unchanged] at hrest
        exact (hbeside.imp fun _ => False.elim).trans hrest

/-- **The picture section commits what is asked of it, one property at a time.** -/
theorem apply_commits (i : Item) (candidate : Object) (p : Picture) (c : Cycle (Recorder S) H) :
    let after := apply candidate p c
    i.Commits (fun q => i.asked? p candidate = some q) p c.sensor after.value
      after.cycle.sensor := by
  rw [apply_turns]
  exact Turn.all_commits Turn.nodup_all p c

end Steps

end Picture

/-- The ports write nothing but their channels. -/
theorem Ports.apply_pushes [Sensor S] (candidate : Object) (p : Ports)
    (c : Cycle (Recorder S) H) :
    c.sensor.Pushes (fun q => q.key = .inputDataType) (apply candidate p c).cycle.sensor :=
  Recorder.Pushes.course.ports (fun _ hq => hq) candidate p c

namespace Common

variable [Sensor S]

/-- The section commits what is asked of the picture.  The ports are beside it. -/
theorem apply_commits (i : Picture.Item) (candidate : Object) (a : Common)
    (c : Cycle (Recorder S) H) :
    let after := apply candidate a c
    i.Commits (fun q => ∃ fragment, Object.object? candidate "pq_settings" = some fragment ∧
      i.asked? a.picture fragment = some q) a.picture c.sensor after.value.picture
      after.cycle.sensor := by
  have hother : ∀ q : Property, q.key = .inputDataType → q.key ≠ i.key :=
    fun q hq => hq ▸ i.key_inputDataType_ne
  refine apply_sections (R := fun p _ r => i.Commits _ a.picture c.sensor p r) (.refl _ _)
    (fun fragment c' hfragment hsensor => ?_) fun fragment picture c' _ hcommits => ?_
  · rw [← hsensor]
    exact (Picture.apply_commits i fragment a.picture c').imp fun q hq => ⟨fragment, hfragment, hq⟩
  · have hpushed := (Ports.apply_pushes fragment a.ports c').imp hother
    exact hcommits.trans (.beside hpushed rfl)

end Common

/-! ### Updates -/

namespace Document

/-- What a text says of the picture. -/
def pictureOf? (text : String) : Option Object := do
  let candidate ← Object.ofText? text
  let settings ← Object.object? candidate "common_settings"
  Object.object? settings "pq_settings"

/-- A text asks a property to be something, and what it says of the picture passes. -/
def Asks (i : Picture.Item) (p : Picture) (text : String) (q : Property) : Prop :=
  ∃ fragment, pictureOf? text = some fragment ∧ p.check fragment = .ok () ∧
    i.asked? p fragment = some q

/-- What is asked of a scalar is the property of a number that passes the rules. -/
theorem asks_scalar {s : Scalar} {p : Picture} {text : String} {q : Property}
    (h : Asks (.scalar s) p text q) :
    ∃ fragment x, pictureOf? text = some fragment ∧
      Rule.checkAll Picture.rules fragment = .ok () ∧
      Object.double? fragment s.field = some x ∧ q = s.property x := by
  obtain ⟨fragment, hfragment, hcheck, hasked⟩ := h
  obtain ⟨x, hx, rfl⟩ := Option.map_eq_some_iff.mp hasked
  exact ⟨fragment, x, hfragment, (Picture.of_check hcheck).1, hx, rfl⟩

/-- What is asked of a structured property is a candidate merged over what is held, and the check
of the candidate has been made with that. -/
theorem asks_structured {s : Structured} {p : Picture} {text : String} {q : Property}
    (h : Asks (.structured s) p text q) :
    ∃ fragment, s.description.check (p.structured.get? s) fragment = .ok () ∧
      q = s.property (s.description.merged fragment (p.structured.get? s)) := by
  obtain ⟨settings, -, hcheck, hasked⟩ := h
  obtain ⟨fragment, hfragment, rfl⟩ := Option.map_eq_some_iff.mp hasked
  exact ⟨fragment, (Picture.of_check hcheck).2.1 s fragment hfragment, rfl⟩

/-- **An update commits what is asked for and has passed, and nothing else.** -/
theorem update_commits [Sensor S] [Hook H] (i : Picture.Item) (state : ProcessState)
    (text : String) (k : Collaborators (Recorder S) H) (d : Document) :
    let u := d.update state text k
    i.Commits (Asks i d.common.picture text) d.common.picture k.sensor u.document.common.picture
      u.collaborators.sensor := by
  refine update_sections (R := fun a r => i.Commits _ d.common.picture k.sensor a.picture r) state
    (.refl _ _) fun candidate settings c htext hverify hsettings hsensor => ?_
  rw [← hsensor]
  refine (Common.apply_commits i settings d.common c).imp fun q ⟨fragment, hfragment, hq⟩ => ?_
  have hpicture : d.common.picture.check fragment = .ok () :=
    (Check.of_object (common_passes hverify hsettings)).2 _ _ _ (by simp) hfragment
  refine ⟨fragment, ?_, hpicture, hq⟩
  simp only [pictureOf?, htext, Option.bind_eq_bind, Option.bind_some, hsettings, hfragment]

end Document

/-! ### Runs -/

/-- What is held of a property is as it may be, and so is all that has been written of it. -/
structure Picture.Item.Meets (i : Item) (V : Option Property → Prop) (p : Picture)
    (r : Recorder S) : Prop where
  held : V (i.value? p)
  pushed : ∀ w ∈ r.writes, w.property.key = i.key → V (some w.property)

theorem Picture.Item.Meets.commits {i : Item} {V : Option Property → Prop} {A : Property → Prop}
    {p p' : Picture} {r r' : Recorder S} (h : i.Meets V p r) (hcommits : i.Commits A p r p' r')
    (hA : ∀ q, A q → V (some q)) : i.Meets V p' r' := by
  constructor
  · rcases hcommits.held with hsame | ⟨q, hq, hnew⟩
    · rw [hsame]
      exact h.held
    · rw [hnew]
      exact hA q hq
  · obtain ⟨writes, hwrites, hallowed⟩ := hcommits.pushed
    intro w hw hkey
    rw [hwrites] at hw
    rcases List.mem_append.mp hw with hold | hnew
    · exact h.pushed w hold hkey
    · exact hA w.property (hallowed w hnew hkey)

namespace Document

variable [Sensor S] [Hook H] {i : Picture.Item} {V : Option Property → Prop}

theorem update_meets {d : Document} {k : Collaborators (Recorder S) H} {text : String}
    (hasked : ∀ q, Asks i d.common.picture text q → V (some q)) (state : ProcessState)
    (h : i.Meets V d.common.picture k.sensor) :
    let u := d.update state text k
    i.Meets V u.document.common.picture u.collaborators.sensor :=
  h.commits (update_commits i state text k d) hasked

/-- **What can be asked for decides what is written and held.**  If no text asks a property to be
something that it may not be, no run of updates writes or holds such a thing. -/
theorem updateAll_meets {inputs : List (ProcessState × String)}
    (hasked : ∀ input ∈ inputs, ∀ p q, V (i.value? p) → Asks i p input.2 q → V (some q)) :
    ∀ {d : Document} {k : Collaborators (Recorder S) H}, i.Meets V d.common.picture k.sensor →
      let run := updateAll inputs d k
      i.Meets V run.1.common.picture run.2.sensor := by
  induction inputs with
  | nil => intro d k h; exact h
  | cons input rest ih =>
      intro d k h
      refine ih (fun input hinput => hasked input (List.mem_cons_of_mem _ hinput)) ?_
      exact update_meets (fun q => hasked input List.mem_cons_self _ q h.held) input.1 h

/-- What is held after an update does not depend on a record. -/
theorem update_held {d : Document} {text : String}
    (hasked : ∀ q, Asks i d.common.picture text q → V (some q)) (state : ProcessState)
    (k : Collaborators S H) (h : V (i.value? d.common.picture)) :
    V (i.value? (d.update state text k).document.common.picture) := by
  have hplain : (d.update state text k.recorded).document = (d.update state text k).document :=
    congrArg Updated.document (update_plain state text k.recorded d)
  rw [← hplain]
  exact (update_meets hasked state (k := k.recorded) ⟨h, nofun⟩).held

end Document

/-! ### Lives -/

/-- Moving to another state leaves the picture alone. -/
theorem Device.picture_transition (d : Device S H) :
    d.transition.document.common.picture = d.document.common.picture := by
  unfold transition
  split <;> rfl

theorem Device.picture_move (s : ProcessState) (d : Device S H) :
    (d.plan s).transition.document.common.picture = d.document.common.picture := by
  rw [picture_transition]
  unfold plan
  split <;> rfl

namespace Lifecycle

variable [Sensor S] [Hook H] [Sink K] {i : Picture.Item} {V : Option Property → Prop}

/-- Whatever is done with a device, only an update puts something else into the picture. -/
theorem act_held (hasked : ∀ text p q, V (i.value? p) → Document.Asks i p text q → V (some q))
    {l : Lifecycle S H K} (hl : V (i.value? l.device.document.common.picture)) (a : Action) :
    V (i.value? (l.act a).device.document.common.picture) := by
  let P (d : Device S H) : Prop := V (i.value? d.document.common.picture)
  have hmove : ∀ d s, P d → P (d.plan s).transition := by
    intro d s hd
    show V (i.value? (d.plan s).transition.document.common.picture)
    rw [Device.picture_move]
    exact hd
  cases a with
  | configure text =>
      obtain ⟨pending, henqueue⟩ := enqueue_eq text l
      show P (l.enqueue text).2.device
      rw [henqueue]
      exact hl
  | process =>
      show P l.process.2.device
      cases hpending : l.device.pending with
      | none =>
          rw [process_of_none hpending]
          exact hl
      | some text =>
          rw [process_of_some hpending]
          have hupdate : P ({ l.device with pending := none }.update text).2.2 :=
            Document.update_held (fun q => hasked text _ q hl) _ _ hl
          have happlied : P (l.applied text).device :=
            applied_keeps (Q := fun _ => True) (fun d s _ => hmove d s) (fun _ hd => hd) trivial
              (fun _ _ => trivial) hupdate
          exact dispatch_keeps (fun _ hd => hd) happlied
  | dispatch => exact dispatch_keeps (P := P) (fun _ hd => hd) hl
  | transition =>
      show V (i.value? l.device.transition.document.common.picture)
      rw [Device.picture_transition]
      exact hl
  | shutdown => exact hmove l.device .destroying hl

theorem run_held (hasked : ∀ text p q, V (i.value? p) → Document.Asks i p text q → V (some q))
    (actions : List Action) :
    ∀ {l : Lifecycle S H K}, V (i.value? l.device.document.common.picture) →
      V (i.value? (run actions l).device.document.common.picture) := by
  induction actions with
  | nil => intro l hl; exact hl
  | cons a rest ih => intro l hl; exact ih (act_held hasked hl a)

end Lifecycle

end DeviceConfig
