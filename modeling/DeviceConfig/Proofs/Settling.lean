/-
Where a simulated sensor lets the settings settle.

Whether a simulated sensor takes a property depends on the property and on what it has been told to
refuse, and no write changes that.  So what a candidate makes of a slot, and of the property that
the sensor stores for it, can be written down beforehand: it depends on what the slot holds, on one
field of the candidate and on nothing else.

What has settled once stays settled.  To apply the same candidate again asks for the same
properties, and those that were taken are there already.
-/
import DeviceConfig.Proofs.Merging
import DeviceConfig.Proofs.Parts
import DeviceConfig.Proofs.Simulator
import DeviceConfig.Proofs.Turns

namespace DeviceConfig

variable {α H : Type}

/-! ### What a simulated sensor takes -/

/-- The sensor would take the property. -/
def Simulator.takes (s : Simulator) (q : Property) : Bool := (s.verdict q).isOk

/-- What the sensor takes depends only on what it has been told to refuse. -/
theorem Simulator.takes_of_refused {s s' : Simulator} (h : s'.refused = s.refused) :
    s'.takes = s.takes := by
  unfold takes verdict
  rw [h]

/-- Two sensors that store the same are read in the same way, and the other way round. -/
theorem Simulator.stored_of_read {s s' : Simulator} (h : ∀ k, s'.read k = s.read k) :
    s'.stored = s.stored := by
  refine Slots.ext (funext fun k => ?_)
  have hread : (s'.stored.get? k).map (fun v => (⟨k, v⟩ : Property)) =
      (s.stored.get? k).map fun v => ⟨k, v⟩ := h k
  refine Option.map_injective (fun v w hvw => ?_) hread
  injection hvw

theorem Simulator.refused_acceptAll (taken : List Property) :
    ∀ s : Simulator, (s.acceptAll taken).refused = s.refused := by
  induction taken with
  | nil => intro s; rfl
  | cons q rest ih => intro s; exact ih (s.accept q)

theorem Cycle.push_of_takes {q : Property} {c : Cycle Simulator H} (h : c.sensor.takes q = true)
    (failure : String) :
    c.push q failure = (.ok (), { c with sensor := c.sensor.accept q }) := by
  unfold Simulator.takes at h
  have hwrite : Sensor.write c.sensor q = (.ok (), c.sensor.accept q) := by
    show c.sensor.write q = _
    unfold Simulator.write
    cases hverdict : c.sensor.verdict q with
    | ok _ => rfl
    | error r =>
        rw [hverdict] at h
        cases h
  exact push_of_taken hwrite failure

theorem Cycle.push_of_not_takes {q : Property} {c : Cycle Simulator H}
    (h : c.sensor.takes q = false) (failure : String) :
    ∃ e, c.push q failure = (.error e, c) := by
  unfold Simulator.takes at h
  cases hverdict : c.sensor.verdict q with
  | ok _ =>
      rw [hverdict] at h
      cases h
  | error r =>
      have hwrite : Sensor.write c.sensor q = (.error r, c.sensor) := by
        show c.sensor.write q = _
        unfold Simulator.write
        rw [hverdict]
      exact ⟨_, push_of_refused hwrite failure⟩

namespace Step

theorem afterPush_of_takes {q : Property} {c : Cycle Simulator H} (h : c.sensor.takes q = true)
    (failure : String) (taken : Step α Simulator H) (a : α) :
    afterPush q failure taken a c = taken a { c with sensor := c.sensor.accept q } := by
  unfold afterPush
  rw [Cycle.push_of_takes h]

theorem afterPush_of_not_takes {q : Property} {c : Cycle Simulator H}
    (h : ¬ c.sensor.takes q = true) (failure : String) (taken : Step α Simulator H) (a : α) :
    ∃ e, afterPush q failure taken a c = ⟨a, c, .error e⟩ := by
  obtain ⟨e, hpush⟩ := Cycle.push_of_not_takes (Bool.not_eq_true _ ▸ h) failure
  refine ⟨e, ?_⟩
  unfold afterPush
  rw [hpush]

end Step

/-! ### Register writes -/

namespace RegisterWrite

/-- A register write as a property of the sensor. -/
def property (r : Fitting) : Property := ⟨.registerAccess, r.val⟩

/-- The entries of a list that are taken. -/
def accepted (takes : Property → Bool) (entries : List Json) : List Fitting :=
  (entries.filterMap ofJson?).filter fun r => takes (property r)

theorem push_simulated (v : Json) (taken : List Fitting) (c : Cycle Simulator H) :
    let new := accepted c.sensor.takes [v]
    Step.Ends (push v) taken c (taken ++ new)
      { c with sensor := c.sensor.acceptAll (new.map property) } := by
  have hnothing : accepted c.sensor.takes [v] = [] →
      (∃ e, push v taken c = ⟨taken, c, .error e⟩) →
      Step.Ends (push v) taken c (taken ++ accepted c.sensor.takes [v])
        { c with sensor := c.sensor.acceptAll ((accepted c.sensor.takes [v]).map property) } := by
    rintro hnew ⟨e, hpush⟩
    rw [hnew, List.append_nil]
    exact Step.ends_of_eq hpush
  cases hv : ofJson? v with
  | none =>
      refine hnothing (by simp [accepted, hv]) ⟨.invalid failure, ?_⟩
      unfold push
      rw [hv]
  | some r =>
      by_cases htakes : c.sensor.takes (property r) = true
      · have hnew : accepted c.sensor.takes [v] = [r] := by simp [accepted, hv, htakes]
        rw [hnew, push_eq hv]
        exact Step.ends_of_eq (Step.afterPush_of_takes htakes failure _ taken)
      · refine hnothing (by simp [accepted, hv, htakes]) ?_
        rw [push_eq hv]
        exact Step.afterPush_of_not_takes htakes failure _ taken

/-- **Of a list of entries exactly those are kept that the sensor takes**, and it takes them in
their order. -/
theorem pushAll_simulated (entries : List Json) :
    ∀ (taken : List Fitting) (c : Cycle Simulator H),
      let new := accepted c.sensor.takes entries
      Step.Ends (Step.all (entries.map push)) taken c (taken ++ new)
        { c with sensor := c.sensor.acceptAll (new.map property) } := by
  induction entries with
  | nil =>
      intro taken c new
      rw [show new = [] from rfl, List.append_nil]
      exact Step.ends_nil taken c
  | cons v rest ih =>
      intro taken c new
      let c' : Cycle Simulator H :=
        { c with sensor := c.sensor.acceptAll ((accepted c.sensor.takes [v]).map property) }
      have htakes : c'.sensor.takes = c.sensor.takes :=
        Simulator.takes_of_refused (Simulator.refused_acceptAll _ c.sensor)
      have hnew : new = accepted c.sensor.takes [v] ++ accepted c.sensor.takes rest := by
        rw [show new = accepted c.sensor.takes ([v] ++ rest) from rfl]
        simp only [accepted, List.filterMap_append, List.filter_append]
      have hrest := ih (taken ++ accepted c.sensor.takes [v]) c'
      simp only [htakes] at hrest
      rw [hnew, ← List.append_assoc, List.map_append, Simulator.acceptAll_append]
      exact (push_simulated v taken c).cons hrest

end RegisterWrite

/-! ### Slots -/

/-- What is held of a property, and what the sensor stores of it, after it has been pushed if it was
asked for. -/
def pushed (takes : Property → Bool) (asked : Option Property)
    (slot : Option Property × Option Property) : Option Property × Option Property :=
  match asked with
  | some q => if takes q then (if slot.1 == some q then slot.1 else some q, some q) else slot
  | none => slot

/-- To push a property again is to no effect. -/
theorem pushed_pushed (takes : Property → Bool) (asked : Option Property)
    (slot : Option Property × Option Property) :
    pushed takes asked (pushed takes asked slot) = pushed takes asked slot := by
  cases asked with
  | none => rfl
  | some q =>
      simp only [pushed]
      by_cases htakes : takes q = true
      · simp only [if_pos htakes]
        by_cases hsame : (slot.1 == some q) = true
        · simp only [if_pos hsame]
        · simp only [if_neg hsame, ite_self]
      · simp only [if_neg htakes]

/-- What is held after a push is what was held before, or what has been asked for. -/
theorem pushed_held (takes : Property → Bool) (asked : Option Property)
    (slot : Option Property × Option Property) :
    (pushed takes asked slot).1 = slot.1 ∨
      ∃ q, asked = some q ∧ (pushed takes asked slot).1 = some q := by
  cases asked with
  | none => exact .inl rfl
  | some q =>
      simp only [pushed]
      by_cases htakes : takes q = true
      · rw [if_pos htakes]
        by_cases hsame : (slot.1 == some q) = true
        · exact .inl (if_pos hsame)
        · exact .inr ⟨q, rfl, if_neg hsame⟩
      · rw [if_neg htakes]
        exact .inl rfl

namespace Picture

namespace Item

/-- What has been put in place is asked for again. -/
theorem asked?_again {i : Item} {p p' : Picture} {candidate : Object} {q : Property}
    (h : i.asked? p candidate = some q) (hheld : i.value? p' = some q) :
    i.asked? p' candidate = some q := by
  cases i with
  | scalar s => exact h
  | structured s =>
      obtain ⟨fragment, hfragment, rfl⟩ := Option.map_eq_some_iff.mp h
      obtain ⟨v, hv, hproperty⟩ := Option.map_eq_some_iff.mp hheld
      obtain rfl : v = s.description.merged fragment (p.structured.get? s) :=
        s.property_injective hproperty
      have hmerged : s.description.merged fragment (p'.structured.get? s) =
          s.description.merged fragment (p.structured.get? s) := by
        rw [hv]
        exact s.independent.merge_merge fragment _
      simp only [asked?, hfragment, Option.map_some, hmerged]

/-- Of a candidate only one field matters to a property. -/
theorem asked?_of_field {i : Item} {candidate candidate' : Object}
    (h : Object.field? candidate' (Turn.item i).field = Object.field? candidate (Turn.item i).field)
    (p : Picture) : i.asked? p candidate' = i.asked? p candidate := by
  cases i with
  | scalar s =>
      simp only [asked?, Object.double?]
      rw [show Object.field? candidate' s.field = Object.field? candidate s.field from h]
  | structured s =>
      simp only [asked?, Object.object?]
      rw [show Object.field? candidate' s.field = Object.field? candidate s.field from h]

end Item

namespace Turn

/-- What the slot of a turn holds, and what the sensor stores for it. -/
def slot (t : Turn) (p : Picture) (s : Simulator) : t.Held × Option Property :=
  (t.held p, s.read t.key)

/-- What a candidate makes of a slot. -/
def after (candidate : Object) (p : Picture) (s : Simulator) : (t : Turn) →
    t.Held × Option Property
  | item i => pushed s.takes (i.asked? p candidate) (i.value? p, s.read i.key)
  | registers =>
    match Object.array? candidate "register_access" with
    | some entries =>
      let taken := RegisterWrite.accepted s.takes (entries.take RegisterWrite.maxEntries)
      (taken, (lastOf .registerAccess (taken.map RegisterWrite.property)).or
        (s.read .registerAccess))
    | none => (p.registers, s.read .registerAccess)

/-- **What becomes of a slot depends on the slot, on one field and on what the sensor takes.** -/
theorem after_congr {t : Turn} {p p' : Picture} {s s' : Simulator} {candidate candidate' : Object}
    (hslot : t.slot p' s' = t.slot p s) (htakes : s'.takes = s.takes)
    (hfield : Object.field? candidate' t.field = Object.field? candidate t.field) :
    t.after candidate' p' s' = t.after candidate p s := by
  obtain ⟨hheld, hread⟩ := Prod.mk.inj hslot
  cases t with
  | item i =>
      have hvalue : i.value? p' = i.value? p := hheld
      have hstored : s'.read i.key = s.read i.key := hread
      simp only [after]
      rw [Item.asked?_of_field hfield, Item.asked?_congr hvalue, hvalue, hstored, htakes]
  | registers =>
      have hregisters : p'.registers = p.registers := hheld
      have hstored : s'.read .registerAccess = s.read .registerAccess := hread
      have hentries : Object.array? candidate' "register_access" =
          Object.array? candidate "register_access" := by
        rw [Object.array?, Object.array?, show Object.field? candidate' "register_access" =
          Object.field? candidate "register_access" from hfield]
      simp only [after, hregisters, hstored, hentries, htakes]

/-- Without its field, a slot stays as it is. -/
theorem after_of_absent {t : Turn} {candidate : Object}
    (h : Object.field? candidate t.field = none) (p : Picture) (s : Simulator) :
    t.after candidate p s = t.slot p s := by
  rcases t with (s' | s') | _
  · replace h : Object.field? candidate s'.field = none := h
    simp only [after, Item.asked?, Object.double?, h]
    rfl
  · replace h : Object.field? candidate s'.field = none := h
    simp only [after, Item.asked?, Object.object?, h]
    rfl
  · replace h : Object.field? candidate "register_access" = none := h
    simp only [after, Object.array?, h]
    rfl

/-- **What has settled stays settled.** -/
theorem after_after {t : Turn} {candidate : Object} {p p' : Picture} {s s' : Simulator}
    (hslot : t.slot p' s' = t.after candidate p s) (htakes : s'.takes = s.takes) :
    t.after candidate p' s' = t.after candidate p s := by
  cases t with
  | item i =>
      have hpushed : (i.value? p', s'.read i.key) =
          pushed s.takes (i.asked? p candidate) (i.value? p, s.read i.key) := hslot
      have hasked : i.asked? p' candidate = i.asked? p candidate := by
        have hheld : i.value? p' = _ := congrArg Prod.fst hpushed
        rcases pushed_held s.takes (i.asked? p candidate) (i.value? p, s.read i.key) with
          hkept | ⟨q, hq, hnew⟩
        · exact Item.asked?_congr (hheld.trans hkept) candidate
        · rw [hq]
          exact Item.asked?_again hq (hheld.trans hnew)
      simp only [after]
      rw [hasked, hpushed, htakes, pushed_pushed]
  | registers =>
      obtain ⟨hheld, hread⟩ := Prod.mk.inj hslot
      have hstored : s'.read .registerAccess = _ := hread
      have hregisters : p'.registers = _ := hheld
      simp only [after] at hstored hregisters ⊢
      rw [htakes, hstored, hregisters]
      cases Object.array? candidate "register_access" with
      | none => rfl
      | some entries =>
          simp only
          rw [← Option.or_assoc, Option.or_self]

/-! ### Turns at a simulated sensor -/

/-- The turn makes of its slot what the candidate asks for, and of the sensor it touches nothing
else. -/
structure Settles (t : Turn) (candidate : Object) (p : Picture) (s : Simulator) (p' : Picture)
    (s' : Simulator) : Prop where
  own : t.slot p' s' = t.after candidate p s
  read : ∀ k, k ≠ t.key → s'.read k = s.read k
  refused : s'.refused = s.refused

/-- A turn that does nothing settles a slot that is to stay as it is. -/
theorem Settles.of_kept {t : Turn} {candidate : Object} {p : Picture} {s : Simulator}
    (h : t.after candidate p s = t.slot p s) : t.Settles candidate p s p s :=
  ⟨h.symm, fun _ _ => rfl, rfl⟩

/-- The turn of a property settles its slot. -/
theorem item_settles (i : Item) (candidate : Object) (p : Picture) (c : Cycle Simulator H) :
    let after := (item i).apply candidate p c
    (item i).Settles candidate p c.sensor after.value after.cycle.sensor := by
  intro after
  simp only [after, i.apply_eq]
  cases hasked : i.asked? p candidate with
  | none =>
      refine .of_kept ?_
      simp only [Turn.after, hasked]
      rfl
  | some q =>
      have hkey : q.key = i.key := Item.key_of_asked? hasked
      simp only [Step.whenSome, Item.commit]
      by_cases htakes : c.sensor.takes q = true
      · rw [Step.afterPush_of_takes htakes, Step.renew_sensor]
        refine ⟨?_, fun k hk => ?_, rfl⟩
        · have hread : (c.sensor.accept q).read i.key = some q := by
            rw [Simulator.read_accept, if_pos hkey]
          have hvalue : i.value? (Step.renew (fun p => i.value? p == some q)
                (fun p => i.put q p) p { c with sensor := c.sensor.accept q }).value =
              if i.value? p == some q then i.value? p else some q := by
            unfold Step.renew
            by_cases h : (i.value? p == some q) = true
            · rw [if_pos h, if_pos h]
            · rw [if_neg h, if_neg h]
              exact Item.value?_put hkey p
          show (i.value? _, (c.sensor.accept q).read i.key) = pushed _ _ _
          rw [hread, hvalue, hasked]
          simp only [pushed, if_pos htakes]
        · rw [Simulator.read_accept, if_neg fun h => hk (h.symm.trans hkey)]
      · obtain ⟨e, hpush⟩ := Step.afterPush_of_not_takes htakes i.failure
          (Step.renew (fun p => i.value? p == some q) fun p => i.put q p) p
        rw [hpush]
        refine .of_kept ?_
        simp only [Turn.after, hasked, pushed, if_neg htakes]
        rfl

theorem applyRegisters_simulated {candidate : Object} {entries : List Json}
    (hentries : Object.array? candidate "register_access" = some entries) (p : Picture)
    (c : Cycle Simulator H) :
    let new := RegisterWrite.accepted c.sensor.takes (entries.take RegisterWrite.maxEntries)
    let after := applyRegisters candidate p c
    after.value = { p with registers := new } ∧
      after.cycle.sensor = c.sensor.acceptAll (new.map RegisterWrite.property) := by
  intro new after
  obtain ⟨hvalue, hcycle⟩ := RegisterWrite.pushAll_simulated
    (entries.take RegisterWrite.maxEntries) [] c
  constructor
  · simp only [after, applyRegisters, hentries, Step.whenSome, Step.on, RegisterWrite.apply, hvalue]
    rfl
  · simp only [after, applyRegisters, hentries, Step.whenSome, Step.on, RegisterWrite.apply, hcycle]
    split <;> rfl

theorem registers_settle (candidate : Object) (p : Picture) (c : Cycle Simulator H) :
    let after := registers.apply candidate p c
    registers.Settles candidate p c.sensor after.value after.cycle.sensor := by
  intro after
  cases hentries : Object.array? candidate "register_access" with
  | none =>
      have hskip : after = ⟨p, c, .ok ()⟩ := by
        simp only [after, apply, applyRegisters, hentries]
        rfl
      rw [hskip]
      refine .of_kept ?_
      simp only [Turn.after, hentries]
      rfl
  | some entries =>
      let new := RegisterWrite.accepted c.sensor.takes (entries.take RegisterWrite.maxEntries)
      obtain ⟨hvalue, hsensor⟩ := applyRegisters_simulated hentries p c
      rw [show after.value = _ from hvalue, show after.cycle.sensor = _ from hsensor]
      refine ⟨?_, fun k hk => ?_, ?_⟩
      · have hafter : registers.after candidate p c.sensor =
            (new, (lastOf .registerAccess (new.map RegisterWrite.property)).or
              (c.sensor.read .registerAccess)) := by
          simp only [Turn.after, hentries]
          rfl
        rw [hafter]
        exact congrArg (Prod.mk new) (Simulator.read_acceptAll _ .registerAccess c.sensor)
      · rw [Simulator.read_acceptAll, lastOf_eq_none, Option.none_or]
        intro q hq hkey
        obtain ⟨r, -, rfl⟩ := List.mem_map.mp hq
        exact hk hkey.symm
      · exact Simulator.refused_acceptAll _ c.sensor

/-- **Every turn settles its own slot.** -/
theorem apply_settles (t : Turn) (candidate : Object) (p : Picture) (c : Cycle Simulator H) :
    let after := t.apply candidate p c
    t.Settles candidate p c.sensor after.value after.cycle.sensor :=
  match t with
  | item i => item_settles i candidate p c
  | registers => registers_settle candidate p c

/-- A turn leaves the slot of another alone, and what the sensor stores for it. -/
theorem slot_apply_of_ne {t t' : Turn} (h : t' ≠ t) (candidate : Object) (p : Picture)
    (c : Cycle Simulator H) :
    let after := t.apply candidate p c
    t'.slot after.value after.cycle.sensor = t'.slot p c.sensor := by
  intro after
  have hread : after.cycle.sensor.read t'.key = c.sensor.read t'.key :=
    (apply_settles t candidate p c).read _ fun hkey => h (key_injective hkey)
  exact Prod.ext (held_apply_of_ne h p c) hread

/-- Turns that come once each settle their slots, whatever their order. -/
theorem all_settles (candidate : Object) {turns : List Turn} (hturns : turns.Nodup) :
    ∀ (p : Picture) (c : Cycle Simulator H),
      let after := Step.all (turns.map (apply candidate)) p c
      (∀ t ∈ turns, t.slot after.value after.cycle.sensor = t.after candidate p c.sensor) ∧
        (∀ t, t ∉ turns → t.slot after.value after.cycle.sensor = t.slot p c.sensor) ∧
        (∀ k, (∀ t : Turn, k ≠ t.key) → after.cycle.sensor.read k = c.sensor.read k) ∧
        after.cycle.sensor.refused = c.sensor.refused := by
  induction turns with
  | nil => intro p c; exact ⟨nofun, fun _ _ => rfl, fun _ _ => rfl, rfl⟩
  | cons t rest ih =>
      rw [List.nodup_cons] at hturns
      intro p c
      let mid := t.apply candidate p c
      have hmid : t.Settles candidate p c.sensor mid.value mid.cycle.sensor :=
        apply_settles t candidate p c
      obtain ⟨hown, hother, hread, hrefused⟩ := ih hturns.2 mid.value mid.cycle
      refine ⟨fun t' ht' => ?_, fun t' ht' => ?_, fun k hk => ?_, hrefused.trans hmid.refused⟩
      · by_cases heq : t' = t
        · subst heq
          exact (hother t' hturns.1).trans hmid.own
        · have hrest : t' ∈ rest := (List.mem_cons.mp ht').resolve_left heq
          exact (hown t' hrest).trans (after_congr (slot_apply_of_ne heq candidate p c)
            (Simulator.takes_of_refused hmid.refused) rfl)
      · rw [List.mem_cons, not_or] at ht'
        exact (hother t' ht'.2).trans (slot_apply_of_ne ht'.1 candidate p c)
      · exact (hread k hk).trans (hmid.read k (hk t))

end Turn

/-- The slots together, with the channels of the ports, tell the section and what is stored. -/
theorem eq_of_slots {p p' : Picture} {s s' : Simulator}
    (hslot : ∀ t : Turn, t.slot p' s' = t.slot p s)
    (hchannels : s'.read .inputDataType = s.read .inputDataType) :
    p' = p ∧ s'.stored = s.stored := by
  refine ⟨Turn.ext_held fun t => congrArg Prod.fst (hslot t),
    Simulator.stored_of_read fun k => ?_⟩
  by_cases hk : ∃ t : Turn, k = t.key
  · obtain ⟨t, rfl⟩ := hk
    exact congrArg Prod.snd (hslot t)
  · obtain rfl := Turn.eq_inputDataType fun t ht => hk ⟨t, ht⟩
    exact hchannels

/-- What a candidate makes of the whole section, and of the sensor. -/
structure Settles (candidate : Object) (p : Picture) (s : Simulator) (p' : Picture)
    (s' : Simulator) : Prop where
  slot : ∀ t : Turn, t.slot p' s' = t.after candidate p s
  channels : s'.read .inputDataType = s.read .inputDataType
  refused : s'.refused = s.refused

/-- **A candidate settles every slot of the section.** -/
theorem apply_settles (candidate : Object) (p : Picture) (c : Cycle Simulator H) :
    let after := apply candidate p c
    Settles candidate p c.sensor after.value after.cycle.sensor := by
  rw [apply_turns]
  obtain ⟨hslot, -, hread, hrefused⟩ := Turn.all_settles candidate Turn.nodup_all p c
  exact ⟨fun t => hslot t t.mem_all, hread _ Turn.key_inputDataType_ne, hrefused⟩

/-- A candidate without any field of the section settles nothing new. -/
theorem Settles.of_absent {candidate : Object}
    (h : ∀ t : Turn, Object.field? candidate t.field = none) (p : Picture) (s : Simulator) :
    Settles candidate p s p s :=
  ⟨fun t => (Turn.after_of_absent (h t) p s).symm, rfl, rfl⟩

end Picture

/-! ### Ports -/

/-- To put a candidate into a port again changes nothing. -/
theorem Port.merge_merge (candidate : Object) (p : Port) :
    (p.merge candidate).merge candidate = p.merge candidate := by
  simp only [Port.merge, Option.orElse_eq_orElse, Option.orElse_eq_or, ← Option.or_assoc,
    Option.or_self]

namespace Ports

theorem mergeField_mergeField (candidate : Object) (name : String) (p : Port) :
    mergeField candidate name (mergeField candidate name p) = mergeField candidate name p := by
  unfold mergeField
  cases Object.object? candidate name with
  | none => rfl
  | some fragment => exact p.merge_merge fragment

theorem merge_merge (candidate : Object) (p : Ports) :
    (p.merge candidate).merge candidate = p.merge candidate := by
  simp only [merge, mergeField_mergeField]

theorem merge_nil (p : Ports) : p.merge [] = p := rfl

/-- What a candidate makes of the ports: it is put in as a whole or not at all. -/
def settled (takes : Property → Bool) (candidate : Object) (p : Ports) : Ports :=
  if takes ⟨.inputDataType, (p.merge candidate).channels⟩ then p.merge candidate else p

theorem settled_settled (takes : Property → Bool) (candidate : Object) (p : Ports) :
    (p.settled takes candidate).settled takes candidate = p.settled takes candidate := by
  by_cases htakes : takes ⟨.inputDataType, (p.merge candidate).channels⟩ = true
  · have hmerged : p.settled takes candidate = p.merge candidate := if_pos htakes
    rw [hmerged, settled, merge_merge, ite_self]
  · have hsame : p.settled takes candidate = p := if_neg htakes
    rw [hsame, hsame]

/-- What the ports are, and what the sensor stores for them, once a candidate has been applied. -/
structure Settles (candidate : Object) (p : Ports) (s : Simulator) (p' : Ports) (s' : Simulator) :
    Prop where
  value : p' = p.settled s.takes candidate
  /-- Nothing is written but the channels. -/
  read : ∀ k, k ≠ .inputDataType → s'.read k = s.read k
  channels : s'.read .inputDataType =
    if p' = p then s.read .inputDataType else some ⟨.inputDataType, p'.channels⟩
  refused : s'.refused = s.refused

theorem Settles.of_unchanged {candidate : Object} {p : Ports} {s : Simulator}
    (h : p.settled s.takes candidate = p) : Settles candidate p s p s :=
  ⟨h.symm, fun _ _ => rfl, (if_pos rfl).symm, rfl⟩

theorem apply_settles (candidate : Object) (p : Ports) (c : Cycle Simulator H) :
    let after := apply candidate p c
    Settles candidate p c.sensor after.value after.cycle.sensor := by
  intro after
  simp only [after, apply_eq]
  by_cases hsame : p.merge candidate = p
  · rw [if_pos hsame]
    refine .of_unchanged ?_
    rw [settled, hsame, ite_self]
  · rw [if_neg hsame]
    by_cases htakes : c.sensor.takes ⟨.inputDataType, (p.merge candidate).channels⟩ = true
    · rw [Step.afterPush_of_takes htakes]
      refine ⟨(if_pos htakes).symm, fun k hk => ?_, ?_, rfl⟩
      · show (c.sensor.accept _).read k = _
        rw [Simulator.read_accept, if_neg (Ne.symm hk)]
      · show (c.sensor.accept _).read .inputDataType = _
        rw [Simulator.read_accept, if_pos rfl]
        exact (if_neg hsame).symm
    · obtain ⟨e, hpush⟩ := Step.afterPush_of_not_takes htakes failure
        (Step.renew (fun _ => false) fun _ => p.merge candidate) p
      rw [hpush]
      exact .of_unchanged (if_neg htakes)

end Ports

/-! ### The common section -/

/-- The object under a name, empty if there is none. -/
def Object.part (o : Object) (name : String) : Object := (Object.object? o name).getD []

namespace Common

/-- What a candidate makes of the parts that the sensor knows, and of the sensor. -/
structure Settles (candidate : Object) (a : Common) (s : Simulator) (a' : Common) (s' : Simulator) :
    Prop where
  slot : ∀ t : Picture.Turn,
    t.slot a'.picture s' = t.after (candidate.part "pq_settings") a.picture s
  ports : a'.ports = a.ports.settled s.takes (candidate.part "port_settings")
  channels : s'.read .inputDataType =
    if a'.ports = a.ports then s.read .inputDataType
    else some ⟨.inputDataType, a'.ports.channels⟩
  refused : s'.refused = s.refused

theorem pictureAttempt_settles (given : Object) (a : Common) (c : Cycle Simulator H) :
    let attempt := a.pictureAttempt given c
    Picture.Settles (given.part "pq_settings") a.picture c.sensor
      ((attempt.map (·.value)).getD a.picture) ((attempt.map (·.cycle)).getD c).sensor := by
  intro attempt
  simp only [attempt, pictureAttempt, Object.part]
  cases Object.object? given "pq_settings" with
  | none => exact .of_absent (fun _ => rfl) a.picture c.sensor
  | some fragment => exact Picture.apply_settles fragment a.picture c

theorem portsAttempt_settles (given : Object) (a : Common) (c : Cycle Simulator H) :
    let attempt := a.portsAttempt given c
    Ports.Settles (given.part "port_settings") a.ports c.sensor
      ((attempt.map (·.value)).getD a.ports) ((attempt.map (·.cycle)).getD c).sensor := by
  intro attempt
  simp only [attempt, portsAttempt, Object.part]
  cases Object.object? given "port_settings" with
  | none => exact .of_unchanged (by rw [Option.getD_none, Ports.settled, Ports.merge_nil, ite_self])
  | some fragment => exact Ports.apply_settles fragment a.ports c

/-- **A candidate settles the picture, the ports and the sensor**, and it restates what the sensor
does not know. -/
theorem apply_settles (candidate : Object) (a : Common) (c : Cycle Simulator H) :
    let given := admitted c.state candidate
    let after := apply candidate a c
    after.value = { a.restated given with
        logLevel := (a.newLogLevel? candidate).getD a.logLevel
        picture := after.value.picture
        ports := after.value.ports } ∧
      Settles given a c.sensor after.value after.cycle.sensor := by
  intro given after
  obtain ⟨c', hsensor, hvalue, hcycle⟩ := apply_parts candidate a c
  let picture := a.pictureAttempt given c'
  let between := (picture.map (·.cycle)).getD c'
  let ports := a.portsAttempt given between
  have hpicture : Picture.Settles (given.part "pq_settings") a.picture c.sensor
      ((picture.map (·.value)).getD a.picture) between.sensor :=
    hsensor ▸ pictureAttempt_settles given a c'
  have hports : Ports.Settles (given.part "port_settings") a.ports between.sensor
      ((ports.map (·.value)).getD a.ports) ((ports.map (·.cycle)).getD between).sensor :=
    portsAttempt_settles given a between
  have htakes : between.sensor.takes = c.sensor.takes :=
    Simulator.takes_of_refused hpicture.refused
  have hafter : after.value.picture = (picture.map (·.value)).getD a.picture ∧
      after.value.ports = (ports.map (·.value)).getD a.ports := by
    rw [show after.value = _ from hvalue]
    exact ⟨rfl, rfl⟩
  refine ⟨?_, fun t => ?_, ?_, ?_, ?_⟩
  · rw [hafter.1, hafter.2]
    exact hvalue
  · rw [← hpicture.slot t, hafter.1]
    refine Prod.ext rfl ?_
    show after.cycle.sensor.read t.key = between.sensor.read t.key
    rw [show after.cycle.sensor = _ from hcycle]
    exact hports.read _ (Ne.symm t.key_inputDataType_ne)
  · rw [hafter.2, hports.value, htakes]
  · rw [hafter.2, show after.cycle.sensor = _ from hcycle, hports.channels, hpicture.channels]
  · rw [show after.cycle.sensor = _ from hcycle, hports.refused, hpicture.refused]

/-- **What has settled stays settled.** -/
theorem Settles.again {candidate : Object} {a a' a'' : Common} {s s' s'' : Simulator}
    (h : Settles candidate a s a' s') (h' : Settles candidate a' s' a'' s'') :
    a''.picture = a'.picture ∧ a''.ports = a'.ports ∧ s''.stored = s'.stored := by
  have htakes : s'.takes = s.takes := Simulator.takes_of_refused h.refused
  have hslot : ∀ t : Picture.Turn, t.slot a''.picture s'' = t.slot a'.picture s' := by
    intro t
    rw [h'.slot t, h.slot t]
    exact Picture.Turn.after_after (h.slot t) htakes
  have hports : a''.ports = a'.ports := by
    rw [h'.ports, htakes, h.ports, Ports.settled_settled]
  obtain ⟨hpicture, hstored⟩ :=
    Picture.eq_of_slots hslot (h'.channels.trans (if_pos hports))
  exact ⟨hpicture, hports, hstored⟩

end Common

/-- What an update makes of the common section and of a simulated sensor. -/
theorem Document.update_settles [Hook H] {text : String} {settings : Object} {d : Document}
    (h : d.sectionOf? "common_settings" text = some settings) (state : ProcessState)
    (k : Collaborators Simulator H) :
    let u := d.update state text k
    let given := Common.admitted state settings
    u.document.common = { d.common.restated given with
        logLevel := (d.common.newLogLevel? settings).getD d.common.logLevel
        picture := u.document.common.picture
        ports := u.document.common.ports } ∧
      Common.Settles given d.common k.sensor u.document.common u.collaborators.sensor := by
  intro u given
  obtain ⟨c, hcsensor, hcstate, hcommon, hsensor⟩ := update_common h state k
  rw [hcommon, hsensor]
  simp only [given, ← hcsensor, ← hcstate]
  exact Common.apply_settles settings d.common c

end DeviceConfig
