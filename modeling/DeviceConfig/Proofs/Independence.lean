/-
Picture properties one at a time.

What a candidate says of the picture can be sent as a whole, or one member at a time in any order.
Every member has a slot to itself, so what has settled after some of them is what a candidate of just
these would have settled.  That no longer tells in which order they came, and after the last of them
it is what the whole candidate settles.

Each of them passes, too.  A rule looks at one member only, and the check of a structured property
looks at what is held in the slot of that property, which the members before it have left alone.
-/
import DeviceConfig.Proofs.Fidelity
import DeviceConfig.Proofs.Settling

namespace DeviceConfig

variable {H : Type}

/-! ### Members and their order -/

namespace Object

theorem field?_append (o o' : Object) (key : String) :
    field? (o ++ o') key = (field? o key).or (field? o' key) := List.lookup_append

theorem field?_eq_some_iff {o : Object} (hkeys : (o.map Prod.fst).Nodup) {key : String}
    {v : Json} : field? o key = some v ↔ (key, v) ∈ o := ⟨mem_of_field?, field?_of_mem hkeys⟩

theorem field?_eq_none {o : Object} {key : String} (h : key ∉ o.map Prod.fst) :
    field? o key = none := by
  refine Option.eq_none_iff_forall_ne_some.mpr fun v hv => ?_
  exact h (List.mem_map.mpr ⟨_, mem_of_field? hv, rfl⟩)

/-- Where no key repeats, the order of the members does not matter. -/
theorem field?_of_perm {o o' : Object} (hkeys : (o.map Prod.fst).Nodup) (h : o'.Perm o)
    (key : String) : field? o' key = field? o key := by
  have hkeys' : (o'.map Prod.fst).Nodup := (h.map Prod.fst).nodup_iff.mpr hkeys
  refine Option.ext fun v => ?_
  rw [field?_eq_some_iff hkeys, field?_eq_some_iff hkeys', h.mem_iff]

end Object

namespace Picture

/-! ### What settles member by member -/

namespace Settles

variable {candidate more : Object} {p p' p'' : Picture} {s s' s'' : Simulator}

/-- What settles is decided by what is found in the candidate. -/
theorem congr (h : Settles candidate p s p' s')
    (hfield : ∀ key, Object.field? more key = Object.field? candidate key) :
    Settles more p s p' s' :=
  ⟨fun t => (h.slot t).trans (Turn.after_congr rfl rfl (hfield t.field)).symm, h.channels,
    h.refused⟩

/-- Two candidates without a common key settle what they would settle together. -/
theorem append (h : Settles candidate p s p' s') (h' : Settles more p' s' p'' s'')
    (hapart : ∀ key, Object.field? candidate key = none ∨ Object.field? more key = none) :
    Settles (candidate ++ more) p s p'' s'' := by
  have htakes : s'.takes = s.takes := Simulator.takes_of_refused h.refused
  refine ⟨fun t => ?_, h'.channels.trans h.channels, h'.refused.trans h.refused⟩
  have htogether := Object.field?_append candidate more t.field
  rw [h'.slot t]
  rcases hapart t.field with hnone | hnone
  · -- The slot is as it was, and the second candidate finds it so.
    have hslot : t.slot p' s' = t.slot p s :=
      (h.slot t).trans (Turn.after_of_absent hnone p s)
    refine Turn.after_congr hslot htakes ?_
    rw [htogether, hnone, Option.none_or]
  · rw [Turn.after_of_absent hnone, h.slot t]
    refine Turn.after_congr rfl rfl ?_
    rw [htogether, hnone, Option.or_none]

/-- A slot whose field the candidate does not have holds what it held. -/
theorem structured_of_absent (h : Settles candidate p s p' s') {i : Structured}
    (hnone : Object.field? candidate i.field = none) :
    p'.structured.get? i = p.structured.get? i := by
  have hslot := (h.slot (.item (.structured i))).trans (Turn.after_of_absent hnone p s)
  exact Item.get?_of_value? (congrArg Prod.fst hslot)

/-- The same candidate makes the same of the same section and sensor. -/
theorem unique (h : Settles candidate p s p' s') (h' : Settles candidate p s p'' s'') :
    p'' = p' ∧ s''.stored = s'.stored :=
  eq_of_slots (fun t => (h'.slot t).trans (h.slot t).symm) (h'.channels.trans h.channels.symm)

end Settles

/-! ### What passes member by member -/

/-- **A member of a candidate that passes also passes on its own**, as long as what is held of its
property is the same. -/
theorem check_member {p p' : Picture} {o : Object} {m : String × Json}
    (hkeys : (o.map Prod.fst).Nodup) (hm : m ∈ o)
    (hknown : ∀ s : Structured, s.field = m.1 → p'.structured.get? s = p.structured.get? s)
    (h : p.check o = .ok ()) : p'.check [m] = .ok () := by
  obtain ⟨name, v⟩ := m
  have hfield : ∀ {key w}, Object.field? [(name, v)] key = some w →
      key = name ∧ Object.field? o key = some w := by
    intro key w hw
    obtain ⟨rfl, rfl⟩ := Prod.mk.inj (List.mem_singleton.mp (Object.mem_of_field? hw))
    exact ⟨rfl, Object.field?_of_mem hkeys hm⟩
  obtain ⟨hobject, hregisters⟩ := Verdict.bind_eq_ok.mp h
  obtain ⟨hrules, hparts⟩ := Check.of_object hobject
  refine Verdict.bind_eq_ok.mpr ⟨?_, ?_⟩
  · refine (Check.object_iff (by simp)).mpr ⟨?_, fun key check value hpart hvalue => ?_⟩
    · refine Verdict.forM_eq_ok.mpr fun n hn => ?_
      obtain rfl := List.mem_singleton.mp hn
      exact Verdict.forM_eq_ok.mp hrules _ hm
    · obtain ⟨s, hs, hcheck⟩ := List.mem_map.mp hpart
      obtain ⟨rfl, rfl⟩ := Prod.mk.inj hcheck
      obtain ⟨w, hw, hobject⟩ := Option.bind_eq_some_iff.mp hvalue
      obtain ⟨hname, hfound⟩ := hfield hw
      unfold checkStructured
      rw [hknown s hname]
      exact hparts _ _ _ (List.mem_map.mpr ⟨s, hs, rfl⟩)
        (Option.bind_eq_some_iff.mpr ⟨w, hfound, hobject⟩)
  · cases hentries : Object.array? [(name, v)] "register_access" with
    | none => rfl
    | some entries =>
        obtain ⟨w, hw, hitems⟩ := Option.bind_eq_some_iff.mp hentries
        have hfound : Object.array? o "register_access" = some entries :=
          Option.bind_eq_some_iff.mpr ⟨w, (hfield hw).2, hitems⟩
        rw [hfound] at hregisters
        exact hregisters

end Picture

namespace Document

/-! ### Requests for the picture -/

/-- A candidate that says something of the picture and, beyond an id, of nothing else. -/
def asking (id : Option String) (o : Object) : Object :=
  ("common_settings", .object [("pq_settings", .object o)]) ::
    (id.map fun id => ("req_info", Json.object [("req_id", .string id)])).toList

theorem nodup_asking (id : Option String) (o : Object) : ((asking id o).map Prod.fst).Nodup := by
  cases id with
  | none => exact List.nodup_singleton _
  | some id =>
      show ["common_settings", "req_info"].Nodup
      decide

theorem object?_asking (id : Option String) (o : Object) :
    Object.object? (asking id o) "common_settings" = some [("pq_settings", .object o)] := rfl

/-- The verdict on such a candidate is the one on what it says of the picture. -/
theorem verify_asking {d : Document} {id : Option String} {o : Object} :
    (d.verify (asking id o)).1 = .ok () ↔ d.common.picture.check o = .ok () := by
  have hsection : d.common.check [("pq_settings", .object o)] = .ok () ↔
      d.common.picture.check o = .ok () := by
    refine (Check.object_iff (by simp)).trans
      ⟨fun h => h.2 "pq_settings" d.common.picture.check o (by simp) rfl,
        fun h => ⟨rfl, fun name check fragment hpart hfragment => ?_⟩⟩
    obtain ⟨w, hw, hobject⟩ := Option.bind_eq_some_iff.mp hfragment
    obtain ⟨rfl, rfl⟩ := Prod.mk.inj (List.mem_singleton.mp (Object.mem_of_field? hw))
    obtain rfl : o = fragment := Option.some.inj hobject
    simp only [List.mem_cons, Prod.mk.injEq, String.reduceEq, false_and, true_and,
      List.not_mem_nil, or_false, false_or] at hpart
    exact hpart ▸ h
  show d.check (asking id o) = .ok () ↔ _
  refine (Check.object_iff (nodup_asking id o)).trans ⟨fun h => ?_, fun h => ⟨?_, ?_⟩⟩
  · exact hsection.mp (h.2 "common_settings" d.common.check _ (by simp) (object?_asking id o))
  · cases id <;> rfl
  · intro name check fragment hpart hfragment
    simp only [List.mem_cons, Prod.mk.injEq, List.not_mem_nil, or_false] at hpart
    rcases hpart with ⟨rfl, rfl⟩ | ⟨rfl, rfl⟩ | ⟨rfl, rfl⟩ | ⟨rfl, rfl⟩
    · cases id with
      | none => cases hfragment
      | some id =>
          obtain rfl : [("req_id", Json.string id)] = fragment := Option.some.inj hfragment
          rfl
    · cases id <;> cases hfragment
    · obtain rfl : [("pq_settings", Json.object o)] = fragment := Option.some.inj hfragment
      exact hsection.mpr h
    · rfl

/-- Unless the device is running, an update with such a candidate settles the picture. -/
theorem update_asking [Hook H] {text : String} {id : Option String} {o : Object} {d : Document}
    (htext : Object.ofText? text = some (asking id o))
    (hpasses : d.common.picture.check o = .ok ()) {state : ProcessState} (hstate : state ≠ .running)
    (k : Collaborators Simulator H) :
    let u := d.update state text k
    Picture.Settles o d.common.picture k.sensor u.document.common.picture u.collaborators.sensor := by
  have hcommon := sectionOf?_of_passed htext (verify_asking.mpr hpasses) "common_settings"
  obtain ⟨-, hsettles⟩ := update_settles (hcommon.trans (object?_asking id o)) state k
  rw [Common.admitted, if_neg hstate] at hsettles
  refine ⟨hsettles.slot, ?_, hsettles.refused⟩
  rw [hsettles.channels, if_pos]
  rw [hsettles.ports, Ports.settled]
  exact ite_self _

/-! ### One member after the other -/

/-- The document takes the text. -/
def Accepts (d : Document) (text : String) : Prop :=
  ∃ candidate, Object.ofText? text = some candidate ∧ (d.verify candidate).1 = .ok ()

/-- An input that says one thing of the picture, to a device that is not running. -/
def Sends (m : String × Json) (input : ProcessState × String) : Prop :=
  input.1 ≠ .running ∧ ∃ id, Object.ofText? input.2 = some (asking id [m])

/-- **One more member is accepted, and it settles with those before it.** -/
theorem update_member [Hook H] {o : Object} {p : Picture} {s : Simulator}
    (hkeys : (o.map Prod.fst).Nodup) (hpasses : p.check o = .ok ()) {done : Object}
    {m : String × Json} (hm : m ∈ o) (hnew : m.1 ∉ done.map Prod.fst) {d : Document}
    {k : Collaborators Simulator H} (hdone : Picture.Settles done p s d.common.picture k.sensor)
    {input : ProcessState × String} (hsends : Sends m input) :
    let u := d.update input.1 input.2 k
    d.Accepts input.2 ∧
      Picture.Settles (done ++ [m]) p s u.document.common.picture u.collaborators.sensor := by
  obtain ⟨hstate, id, htext⟩ := hsends
  have hcheck : d.common.picture.check [m] = .ok () :=
    Picture.check_member hkeys hm
      (fun i hi => hdone.structured_of_absent (hi ▸ Object.field?_eq_none hnew)) hpasses
  refine ⟨⟨_, htext, verify_asking.mpr hcheck⟩, ?_⟩
  refine hdone.append (update_asking htext hcheck hstate k) fun key => ?_
  by_cases hkey : key = m.1
  · exact .inl (hkey ▸ Object.field?_eq_none hnew)
  · exact .inr (Object.field?_eq_none (by simpa using hkey))

/-- Every member that is sent is accepted, and what has settled in the end is what the members
settle together. -/
theorem updateAll_settles [Hook H] {o : Object} {p : Picture} {s : Simulator}
    (hkeys : (o.map Prod.fst).Nodup) (hpasses : p.check o = .ok ()) {members : Object}
    {inputs : List (ProcessState × String)} (hinputs : List.Forall₂ Sends members inputs) :
    ∀ {done : Object} {d : Document} {k : Collaborators Simulator H},
      (done ++ members).Perm o → Picture.Settles done p s d.common.picture k.sensor →
        (∀ earlier input later, inputs = earlier ++ input :: later →
          (updateAll earlier d k).1.Accepts input.2) ∧
        Picture.Settles (done ++ members) p s (updateAll inputs d k).1.common.picture
          (updateAll inputs d k).2.sensor := by
  induction hinputs with
  | nil =>
      intro done d k _ hdone
      refine ⟨fun earlier input later h => ?_, ?_⟩
      · exact absurd h.symm (List.append_ne_nil_of_right_ne_nil _ (List.cons_ne_nil _ _))
      · rw [List.append_nil]
        exact hdone
  | @cons m input members inputs hsends _ ih =>
      intro done d k hperm hdone
      have hmem : m ∈ o := hperm.mem_iff.mp (by simp)
      have hnodup : ((done ++ m :: members).map Prod.fst).Nodup :=
        (hperm.map Prod.fst).nodup_iff.mpr hkeys
      have hnew : m.1 ∉ done.map Prod.fst := by
        rw [List.map_append, List.map_cons, List.nodup_middle] at hnodup
        exact fun h => (List.nodup_cons.mp hnodup).1 (List.mem_append_left _ h)
      obtain ⟨haccepts, hsettles⟩ := update_member hkeys hpasses hmem hnew hdone hsends
      have hmembers : done ++ m :: members = (done ++ [m]) ++ members := by simp
      rw [hmembers] at hperm ⊢
      obtain ⟨hlater, hrest⟩ := ih hperm hsettles
      refine ⟨fun earlier other later h => ?_, hrest⟩
      cases earlier with
      | nil =>
          obtain ⟨rfl, -⟩ := List.cons.inj h
          exact haccepts
      | cons first earlier =>
          obtain ⟨rfl, hinputs⟩ := List.cons.inj h
          exact hlater earlier other later hinputs

/-- **What is asked of the picture can be asked one member at a time, in any order.**  If a whole
candidate passes, so does each of its members when its turn comes, and in the end the picture is what
the whole candidate would have made of it, and so is what the sensor stores, whatever the sensor
refuses. -/
theorem updateAll_members [Hook H] {d : Document} {k : Collaborators Simulator H}
    {state : ProcessState} {whole : String} {id : Option String} {o members : Object}
    {inputs : List (ProcessState × String)} (hstate : state ≠ .running)
    (hwhole : Object.ofText? whole = some (asking id o))
    (hpasses : (d.verify (asking id o)).1 = .ok ()) (hmembers : members.Perm o)
    (hinputs : List.Forall₂ Sends members inputs) :
    let once := d.update state whole k
    let apart := updateAll inputs d k
    (∀ earlier input later, inputs = earlier ++ input :: later →
      (updateAll earlier d k).1.Accepts input.2) ∧
    apart.1.common.picture = once.document.common.picture ∧
    apart.2.sensor.stored = once.collaborators.sensor.stored := by
  intro once apart
  have hsorted := ((Object.sorted_of_ofText? hwhole).object? (object?_asking id o)).object?
    (show Object.object? [("pq_settings", .object o)] "pq_settings" = some o from rfl)
  have hcheck := verify_asking.mp hpasses
  obtain ⟨haccepts, hsettles⟩ := updateAll_settles hsorted.nodup hcheck hinputs
    (d := d) (k := k) (show ([] ++ members).Perm o from hmembers)
    (.of_absent (fun _ => rfl) d.common.picture k.sensor)
  have honce := update_asking hwhole hcheck hstate k
  obtain ⟨hpicture, hstored⟩ := honce.unique
    (hsettles.congr fun key => (Object.field?_of_perm hsorted.nodup hmembers key).symm)
  exact ⟨haccepts, hpicture, hstored⟩

/-- Such a candidate is read from its own text. -/
theorem ofText?_asking {o : Object} (h : (Json.object o).Legible 2)
    (hdoubles : ∀ x ∈ (Json.object o).doubles, x.ReadsBack) :
    Object.ofText? (Json.object (asking none o)).text = some (asking none o) := by
  have hsection : (Json.object [("pq_settings", Json.object o)]).Legible 3 :=
    Json.legible_object.mpr ⟨List.pairwise_singleton _ _, by simpa using h⟩
  have hlegible : (Json.object (asking none o)).Legible 4 :=
    Json.legible_object.mpr ⟨List.pairwise_singleton _ _, by simpa [asking] using hsection⟩
  have hread : (Json.object (asking none o)).reread? = some (.object (asking none o)) := by
    refine (Json.reread?_eq_self _).mpr ?_
    simpa [asking, Json.doubles, Json.doublesOfMembers] using hdoubles
  rw [Object.ofText?, Json.ofText?_text (hlegible.mono (by decide)), hread]
  rfl

/-- A horizontal flip and some zoom. -/
def flipAndZoom : Object :=
  [("camera_image_flip", .object [("flip_horizontal", .word 1)]), ("digital_zoom", .word 2)]

/-- Asked for the zoom first and for the flip afterwards, a sensor that has no zoom stores what it
stores when it is asked for both at once. -/
theorem updateAll_members_zoomless :
    let text (o : Object) := (Json.object (asking none o)).text
    let inputs := [(.idle, text (flipAndZoom.drop 1)), (.idle, text (flipAndZoom.take 1))]
    let once := Document.update .idle (text flipAndZoom) zoomless {}
    let apart := updateAll inputs {} zoomless
    Object.ofText? (text flipAndZoom) = some (asking none flipAndZoom) ∧
      List.Forall₂ Sends flipAndZoom.reverse inputs ∧
      apart.1.common.picture = once.document.common.picture ∧
      apart.2.sensor.stored = once.collaborators.sensor.stored ∧
      (once.document.common.picture.structured.get? .cameraImageFlip).map
        ImageFlip.horizontal = some 1 ∧
      once.document.common.picture.scalars.get? .digitalZoom = none := by
  intro text inputs once apart
  have hascending : Object.Ascending flipAndZoom := List.pairwise_pair.mpr (by decide)
  have hmembers : ∀ m ∈ flipAndZoom, m.2.Legible 1 := by
    simp [flipAndZoom, Json.word, Json.legible_object, Object.Ascending]
  have hread : ∀ o : Object, o.Sublist flipAndZoom →
      (∀ x ∈ (Json.object o).doubles, x.ReadsBack) → Object.ofText? (text o) = _ :=
    fun o ho => ofText?_asking (Json.legible_object.mpr
      ⟨hascending.sublist ho, fun m hm => hmembers m (ho.subset hm)⟩)
  have hwhole := hread flipAndZoom (.refl _) (by decide +kernel)
  have hzoom := hread (flipAndZoom.drop 1) (List.drop_sublist 1 _) (by decide +kernel)
  have hflip := hread (flipAndZoom.take 1) (List.take_sublist 1 _) (by decide +kernel)
  have hinputs : List.Forall₂ Sends flipAndZoom.reverse inputs :=
    .cons ⟨by decide, none, hzoom⟩ (.cons ⟨by decide, none, hflip⟩ .nil)
  obtain ⟨-, hpicture, hstored⟩ := updateAll_members (d := {}) (k := zoomless)
    (show ProcessState.idle ≠ .running by decide) hwhole (by decide +kernel) (List.reverse_perm _) hinputs
  exact ⟨hwhole, hinputs, hpicture, hstored, by decide +kernel, by decide +kernel⟩

end Document

end DeviceConfig
