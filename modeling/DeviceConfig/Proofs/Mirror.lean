/-
The document shows what the sensor holds.

A picture property is kept in two places: in the document, as the value that the sensor took
last, and in the sensor itself.  The two agree when the document has been loaded, and no update
takes them apart, whichever writes are refused on the way.

The argument is about one slot of the document and the writes that the sensor has taken.  If one
of them was for the property of the slot, the slot holds the last of these; otherwise the slot
holds what it held.  A simulated sensor is in the same position, so the two go together.  They
agree in value only: of two zeros with different signs, the document keeps the one it had.
-/
import DeviceConfig.Proofs.Parts
import DeviceConfig.Proofs.Simulator
import DeviceConfig.Proofs.Turns

namespace DeviceConfig

variable {H : Type}

namespace Picture

namespace Item

/-- A document has followed the writes that a sensor has taken: it holds the last one of the
property, and if there was none, it holds what it held. -/
def Follows (i : Item) (taken : List Property) (p p' : Picture) : Prop :=
  match lastOf i.key taken with
  | some q => (i.value? p' == some q) = true
  | none => i.value? p' = i.value? p

theorem Follows.trans {i : Item} {earlier later : List Property} {p p' p'' : Picture}
    (h : i.Follows earlier p p') (h' : i.Follows later p' p'') :
    i.Follows (earlier ++ later) p p'' := by
  unfold Follows at *
  rw [lastOf_append]
  cases hlater : lastOf i.key later with
  | some q =>
      rw [hlater] at h'
      exact h'
  | none =>
      simp only [hlater] at h'
      simp only [Option.none_or, h']
      exact h

/-- Writes of other properties leave a slot alone. -/
theorem follows_of_ne {i : Item} {taken : List Property} {p p' : Picture}
    (htaken : ∀ q ∈ taken, q.key ≠ i.key) (hvalue : i.value? p' = i.value? p) :
    i.Follows taken p p' := by
  unfold Follows
  rw [lastOf_eq_none htaken]
  exact hvalue

end Item

/-- No value that is held has a `nan` in it. -/
def Proper (p : Picture) : Prop := ∀ (i : Item) (q : Property), i.value? p = some q → q.Proper

/-- A section has followed a sensor through some writes. -/
structure Tracked (p : Picture) (s : Simulator) (p' : Picture) (s' : Simulator) : Prop where
  proper : p'.Proper
  followed : ∃ taken, s' = s.acceptAll taken ∧ ∀ i : Item, i.Follows taken p p'

namespace Tracked

variable {p p' : Picture} {s s' : Simulator}

theorem refl (hp : p.Proper) (s : Simulator) : Tracked p s p s :=
  ⟨hp, [], rfl, fun _ => rfl⟩

theorem trans {p'' : Picture} {s'' : Simulator} (h : Tracked p s p' s')
    (h' : Tracked p' s' p'' s'') : Tracked p s p'' s'' := by
  obtain ⟨-, earlier, rfl, hearlier⟩ := h
  obtain ⟨hproper, later, rfl, hlater⟩ := h'
  refine ⟨hproper, earlier ++ later, (Simulator.acceptAll_append earlier later s).symm, ?_⟩
  intro i
  exact (hearlier i).trans (hlater i)

/-- One write has been taken, and its slot holds it. -/
theorem of_taken (hp : p.Proper) {i : Item} {q : Property} (hkey : q.key = i.key)
    (hq : q.Proper) (hvalue : i.value? p' = some q ∨ i.value? p' = i.value? p ∧
      (i.value? p' == some q) = true)
    (hothers : ∀ j, j ≠ i → j.value? p' = j.value? p) : Tracked p s p' (s.accept q) := by
  constructor
  · intro j r hr
    by_cases hj : j = i
    · subst hj
      rcases hvalue with hnew | ⟨hold, -⟩
      · rw [hnew] at hr
        cases hr
        exact hq
      · exact hp j r (hold ▸ hr)
    · exact hp j r (hothers j hj ▸ hr)
  · refine ⟨[q], rfl, fun j => ?_⟩
    by_cases hj : j = i
    · subst hj
      unfold Item.Follows
      rw [lastOf_singleton, if_pos hkey]
      rcases hvalue with hnew | ⟨-, hequal⟩
      · simp only [hnew]
        exact Property.beq_self hq
      · exact hequal
    · refine Item.follows_of_ne ?_ (hothers j hj)
      intro r hr hkey'
      obtain rfl := List.mem_singleton.mp hr
      exact hj (Item.key_injective (hkey'.symm.trans hkey))

end Tracked

/-- A section without a `nan` follows the sensor. -/
def Tracks (p : Picture) (c : Cycle Simulator H) (p' : Picture) (c' : Cycle Simulator H) : Prop :=
  p.Proper → Tracked p c.sensor p' c'.sensor

theorem tracks_course : Step.Course (Tracks : Picture → Cycle Simulator H → _) where
  refl _ c hp := Tracked.refl hp c.sensor
  trans h h' hp := (h hp).trans (h' (h hp).proper)

/-! ### Writes beside the slots -/

/-- The sensor has only taken writes of properties that the document does not keep. -/
def Aside (c c' : Cycle Simulator H) : Prop :=
  ∃ taken, c'.sensor = c.sensor.acceptAll taken ∧ ∀ q ∈ taken, ∀ i : Item, q.key ≠ i.key

/-- Writes of properties that the document does not keep stay beside its slots. -/
theorem aside_sensors : Sensor.Course (fun q => ∀ i : Item, q.key ≠ i.key)
    fun s s' : Simulator =>
      ∃ taken, s' = s.acceptAll taken ∧ ∀ q ∈ taken, ∀ i : Item, q.key ≠ i.key where
  refl s := ⟨[], rfl, nofun⟩
  trans := by
    rintro s s' s'' ⟨earlier, rfl, hearlier⟩ ⟨later, rfl, hlater⟩
    exact ⟨earlier ++ later, (Simulator.acceptAll_append earlier later s).symm,
      List.forall_mem_append.mpr ⟨hearlier, hlater⟩⟩
  write := by
    intro q hq s
    rcases s.write_cases q with ⟨rejection, h⟩ | h
    · exact ⟨[], congrArg Prod.snd h, nofun⟩
    · exact ⟨[q], congrArg Prod.snd h, List.forall_mem_singleton.mpr hq⟩

theorem tracks_of_aside {p p' : Picture} {c c' : Cycle Simulator H} (h : Aside c c')
    (hvalue : ∀ i : Item, i.value? p' = i.value? p) : Tracks p c p' c' := by
  intro hp
  obtain ⟨taken, hsensor, htaken⟩ := h
  refine ⟨fun i q hq => hp i q (hvalue i ▸ hq), taken, hsensor, fun i => ?_⟩
  exact Item.follows_of_ne (fun q hq => htaken q hq i) (hvalue i)

/-! ### Turns -/

theorem Item.proper_of_asked? {i : Item} {p : Picture} {candidate : Object} {q : Property}
    (hp : p.Proper) (h : i.asked? p candidate = some q) : q.Proper := by
  cases i with
  | scalar s =>
      obtain ⟨x, -, rfl⟩ := Option.map_eq_some_iff.mp h
      exact s.proper_property x
  | structured s =>
      obtain ⟨fragment, -, rfl⟩ := Option.map_eq_some_iff.mp h
      refine s.proper_merged fragment fun v hv => ?_
      exact hp (.structured s) (s.property v) (by rw [Item.value?, hv]; rfl)

theorem Item.commit_tracks {i : Item} {q : Property} (hkey : q.key = i.key) (hq : q.Proper) :
    Step.Leads (Tracks (H := H)) (i.commit q) := by
  intro p c hp
  unfold commit Step.afterPush
  rcases c.push_simulator q i.failure with ⟨e, h⟩ | h
  · simp only [h]
    exact Tracked.refl hp c.sensor
  · simp only [h, Step.renew]
    split
    · rename_i hequal
      exact Tracked.of_taken hp hkey hq (.inr ⟨rfl, hequal⟩) fun _ _ => rfl
    · exact Tracked.of_taken hp hkey hq (.inl (Item.value?_put hkey p))
        fun j hj => Item.value?_put_of_ne hj q p

theorem Turn.apply_tracks (candidate : Object) (t : Turn) :
    Step.Leads (Tracks (H := H)) (t.apply candidate) := by
  intro p c
  cases t with
  | item i =>
      rw [i.apply_eq]
      cases hasked : i.asked? p candidate with
      | none => exact fun hp => Tracked.refl hp c.sensor
      | some q =>
          exact fun hp => Item.commit_tracks (Item.key_of_asked? hasked)
            (Item.proper_of_asked? hp hasked) p c hp
  | registers =>
      have hbeside : ∀ q : Property, q.key = .registerAccess → ∀ i : Item, q.key ≠ i.key :=
        fun q hq i => hq ▸ i.key_registerAccess_ne
      refine tracks_of_aside (aside_sensors.turn (t := .registers) hbeside p c) fun i => ?_
      have hne : Turn.item i ≠ .registers := nofun
      exact Turn.held_apply_of_ne hne p c

/-- Whatever a candidate makes of the picture section, the sensor is followed. -/
theorem apply_tracks (candidate : Object) :
    Step.Leads (Tracks (H := H)) (apply candidate) := by
  rw [apply_turns]
  refine tracks_course.all fun f hf => ?_
  obtain ⟨t, -, rfl⟩ := List.mem_map.mp hf
  exact t.apply_tracks candidate

end Picture

theorem Ports.apply_aside (candidate : Object) :
    Step.Leads (fun _ (c : Cycle Simulator H) _ c' => Picture.Aside c c')
      (Ports.apply candidate) :=
  Picture.aside_sensors.ports (fun _ hq i => hq ▸ i.key_inputDataType_ne) candidate

namespace Common

/-- The picture section follows the sensor, since the ports are beside it. -/
theorem apply_tracked (candidate : Object) {a : Common} (ha : a.picture.Proper)
    (c : Cycle Simulator H) :
    let after := apply candidate a c
    Picture.Tracked a.picture c.sensor after.value.picture after.cycle.sensor := by
  refine apply_sections (R := fun p _ s => Picture.Tracked a.picture c.sensor p s)
    (.refl ha c.sensor) (fun fragment c' _ hsensor => ?_) fun fragment picture c' _ htracked => ?_
  · rw [← hsensor]
    exact Picture.apply_tracks fragment a.picture c' ha
  · have haside : Picture.Aside c' _ := Ports.apply_aside fragment a.ports c'
    exact htracked.trans (Picture.tracks_of_aside haside (fun _ => rfl) htracked.proper)

end Common

/-! ### Updates -/

/-- A section holds what a sensor holds. -/
structure Picture.Mirrors (p : Picture) (s : Simulator) : Prop where
  proper : p.Proper
  equal : ∀ i : Item, (i.value? p == Sensor.read s i.key) = true

theorem Picture.Mirrors.follow {p p' : Picture} {s s' : Simulator} (h : p.Mirrors s)
    (htracked : Tracked p s p' s') : p'.Mirrors s' := by
  obtain ⟨hproper, taken, rfl, hfollows⟩ := htracked
  refine ⟨hproper, fun i => ?_⟩
  have hi := hfollows i
  unfold Item.Follows at hi
  show (i.value? p' == (s.acceptAll taken).read i.key) = true
  rw [Simulator.read_acceptAll]
  cases hlast : lastOf i.key taken with
  | some q => rwa [hlast] at hi
  | none =>
      rw [hlast] at hi
      rw [hi]
      exact h.equal i

namespace Document

/-- An update follows the sensor, whatever becomes of it. -/
theorem update_tracked [Hook H] (state : ProcessState) (text : String)
    (k : Collaborators Simulator H) {d : Document} (hd : d.common.picture.Proper) :
    let u := d.update state text k
    Picture.Tracked d.common.picture k.sensor u.document.common.picture
      u.collaborators.sensor := by
  refine update_sections (R := fun a s => Picture.Tracked d.common.picture k.sensor a.picture s)
    state (.refl hd k.sensor) fun candidate settings c _ _ _ hsensor => ?_
  rw [← hsensor]
  exact Common.apply_tracked settings hd c

/-- A document that has been loaded from a sensor shows what the sensor holds. -/
theorem load_mirrors {sensor : Simulator} (hsensor : sensor.Proper) (d : Document) :
    (d.load sensor).common.picture.Mirrors sensor := by
  have hvalue : ∀ i : Picture.Item,
      i.value? (d.load sensor).common.picture = Sensor.read sensor i.key := by
    intro i
    cases i with
    | scalar s => exact Picture.get?_load_scalars sensor d.common.picture s
    | structured s =>
        show ((d.common.picture.load sensor).structured.get? s).map s.property = _
        rw [Picture.get?_load_structured]
        show ((sensor.read s.key).bind fun p => p.as? s.key).map s.property = sensor.read s.key
        unfold Simulator.read
        cases sensor.stored.get? s.key with
        | none => rfl
        | some v => simp [Property.as?, Structured.property]
  have hproper : ∀ (k : Key) (q : Property), Sensor.read sensor k = some q → q.Proper := by
    intro k q hq
    obtain ⟨v, hv, rfl⟩ := Option.map_eq_some_iff.mp hq
    exact hsensor k v hv
  refine ⟨fun i q hq => hproper i.key q (hvalue i ▸ hq), fun i => ?_⟩
  rw [hvalue]
  cases hread : Sensor.read sensor i.key with
  | none => rfl
  | some q => exact Property.beq_self (hproper i.key q hread)

/-! ### Whole runs -/

/-- What can happen to a document and its sensor. -/
inductive Event where
  | update (state : ProcessState) (text : String)
  | refuse (key : Key) (cause : Cause)
  | allow (key : Key)

/-- The document and its collaborators after an event. -/
def occur [Hook H] (d : Document) (k : Collaborators Simulator H) :
    Event → Document × Collaborators Simulator H
  | .update state text =>
    let u := d.update state text k
    (u.document, u.collaborators)
  | .refuse key cause => (d, { k with sensor := k.sensor.refuse key cause })
  | .allow key => (d, { k with sensor := k.sensor.allow key })

/-- The document and its collaborators after several events. -/
def occurAll [Hook H] (events : List Event) (d : Document) (k : Collaborators Simulator H) :
    Document × Collaborators Simulator H :=
  events.foldl (fun x e => occur x.1 x.2 e) (d, k)

/-- No event takes the document and the sensor apart. -/
theorem occur_mirrors [Hook H] {d : Document} {k : Collaborators Simulator H}
    (h : d.common.picture.Mirrors k.sensor) (e : Event) :
    (occur d k e).1.common.picture.Mirrors (occur d k e).2.sensor := by
  cases e with
  | update state text => exact h.follow (update_tracked state text k h.proper)
  | refuse key cause => exact ⟨h.proper, h.equal⟩
  | allow key => exact ⟨h.proper, h.equal⟩

theorem occurAll_mirrors [Hook H] (events : List Event) :
    ∀ {d : Document} {k : Collaborators Simulator H}, d.common.picture.Mirrors k.sensor →
      (occurAll events d k).1.common.picture.Mirrors (occurAll events d k).2.sensor := by
  induction events with
  | nil => intro d k h; exact h
  | cons e rest ih => intro d k h; exact ih (occur_mirrors h e)

/-- **The document shows what the sensor holds.**  Once it has been loaded from a sensor without a
`nan`, every picture property has the same value in both after any number of updates, whatever
the sensor refuses in between.  An update leaves a property as it is unless the sensor takes a
write of it, and then the document holds the last one that it has taken. -/
theorem run_mirrors [Hook H] {sensor : Simulator} (hsensor : sensor.Proper) (hook : H)
    (d : Document) (events : List Event) :
    let after := occurAll events (d.load sensor) ⟨sensor, hook⟩
    (∀ i : Picture.Item,
      (i.value? after.1.common.picture == Sensor.read after.2.sensor i.key) = true) ∧
    ∀ state text,
      let u := after.1.update state text after.2
      ∃ taken, u.collaborators.sensor.history = after.2.sensor.history ++ taken ∧
        ∀ i : Picture.Item,
          i.Follows taken after.1.common.picture u.document.common.picture := by
  intro after
  have hafter : after.1.common.picture.Mirrors after.2.sensor :=
    occurAll_mirrors events (load_mirrors hsensor d)
  refine ⟨hafter.equal, fun state text => ?_⟩
  obtain ⟨taken, htaken, hfollows⟩ :=
    (update_tracked state text after.2 hafter.proper).followed
  refine ⟨taken, ?_, hfollows⟩
  rw [htaken, Simulator.history_acceptAll]

/-- A zoom that the sensor refuses stays out of the document, and one that it takes gets in. -/
theorem run_mirrors_allowed :
    let events := [.refuse .digitalZoom .notAvailable, .update .idle zoomRequest,
      .allow .digitalZoom]
    let after := occurAll events (Document.load Simulator.powerOn {}) ⟨.powerOn, Indifferent.mk⟩
    let zoom := Picture.Item.scalar .digitalZoom
    let u := after.1.update .idle zoomRequest after.2
    Simulator.powerOn.Proper ∧
      (zoom.value? after.1.common.picture == Sensor.read after.2.sensor zoom.key) = true ∧
      (zoom.value? after.1.common.picture == some ⟨.digitalZoom, (1 : Single)⟩) = true ∧
      (∃ taken, u.collaborators.sensor.history = after.2.sensor.history ++ taken ∧
        zoom.Follows taken after.1.common.picture u.document.common.picture) ∧
      (zoom.value? u.document.common.picture == some ⟨.digitalZoom, (2 : Single)⟩) = true := by
  have h := run_mirrors Simulator.proper_powerOn Indifferent.mk {}
    [.refuse .digitalZoom .notAvailable, .update .idle zoomRequest, .allow .digitalZoom]
  obtain ⟨taken, htaken, hfollows⟩ := h.2 .idle zoomRequest
  exact ⟨Simulator.proper_powerOn, h.1 _, by decide +kernel, ⟨taken, htaken, hfollows _⟩,
    by decide +kernel⟩

end Document

end DeviceConfig
