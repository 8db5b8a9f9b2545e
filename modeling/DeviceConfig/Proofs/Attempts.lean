/-
What the application of a picture pushes, keeps and reports.

A candidate says beforehand what is going to be pushed: the scalars that it has, its register
writes and the structured properties that it has, in this order.  The sensor may take each push
or refuse it, for any reason, and none of its answers has a say in what is pushed next.  So there
is one attempt for every push, whatever has become of the earlier ones.

What is kept follows from the answers, turn by turn, since no two turns share a slot: a slot takes
what the sensor has taken, and the list of register writes is made of those that were taken.  What
is reported is the last refusal.
-/
import DeviceConfig.Proofs.Settling

namespace DeviceConfig

variable {α S H : Type}

/-! ### Pushes and attempts -/

/-- A property that is to be pushed, and what the response says if the sensor refuses it. -/
structure Push where
  property : Property
  failure : String

/-- A push that has been made, and what the sensor said to it. -/
structure Attempt where
  push : Push
  answer : Except Rejection Unit

namespace Attempt

/-- The sensor has taken what was pushed. -/
def taken (a : Attempt) : Bool := a.answer.isOk

/-- What an attempt says of the request. -/
def verdict (a : Attempt) : Verdict :=
  match a.answer with
  | .ok () => .ok ()
  | .error r =>
    .error (.sensor (if r.cause = .outOfRange then .outOfRange else .invalidArgument)
      a.push.failure)

/-- What an attempt makes of a slot.  What has been taken is in the slot, unless it is no other
than what was there; what has been refused leaves the slot as it was. -/
def Keeps (a : Attempt) (old new : Option Property) : Prop :=
  if a.taken then
    new = some a.push.property ∨ new = old ∧ (old == some a.push.property) = true
  else new = old

end Attempt

/-- Pushes have been made one after the other, each of them to the sensor that the one before has
left. -/
inductive Attempted [Sensor S] : S → List Attempt → S → Prop where
  | nil {s} : Attempted s [] s
  | cons {s s' : S} {p : Push} {rest} (later : Attempted (Sensor.write s p.property).2 rest s') :
      Attempted s (⟨p, (Sensor.write s p.property).1⟩ :: rest) s'

theorem Attempted.append [Sensor S] {s s' s'' : S} {attempts more : List Attempt}
    (h : Attempted s attempts s') (h' : Attempted s' more s'') :
    Attempted s (attempts ++ more) s'' := by
  induction h with
  | nil => exact h'
  | cons later ih => exact .cons (ih h')

/-- Pushes that have been carried out, and what they come to. -/
structure CarriedOut [Sensor S] (pushes : List Push) (s : S) (attempts : List Attempt) (s' : S)
    (outcome : Verdict) : Prop where
  pushes : attempts.map Attempt.push = pushes
  attempted : Attempted s attempts s'
  concludes : Verdict.Concludes (attempts.map Attempt.verdict) outcome

namespace CarriedOut

variable [Sensor S]

theorem nil {s : S} : CarriedOut [] s [] s (.ok ()) := ⟨rfl, .nil, .nil⟩

theorem append {pushes pushes' : List Push} {s s' s'' : S} {attempts attempts' : List Attempt}
    {outcome outcome' : Verdict} (h : CarriedOut pushes s attempts s' outcome)
    (h' : CarriedOut pushes' s' attempts' s'' outcome') :
    CarriedOut (pushes ++ pushes') s (attempts ++ attempts') s''
      (outcome.lastFailure outcome') where
  pushes := by rw [List.map_append, h.pushes, h'.pushes]
  attempted := h.attempted.append h'.attempted
  concludes := by
    rw [List.map_append]
    exact h.concludes.append h'.concludes

end CarriedOut

/-- A step that follows a push is taken if the push is, and says nothing of its own. -/
theorem Step.afterPush_carriedOut [Sensor S] (q : Property) (failure : String)
    {taken : Step α S H} {a b : α}
    (htaken : ∀ c, (taken a c).value = b ∧ (taken a c).cycle.sensor = c.sensor ∧
      (taken a c).outcome = .ok ()) (c : Cycle S H) :
    let after := afterPush q failure taken a c
    ∃ attempt : Attempt,
      CarriedOut [⟨q, failure⟩] c.sensor [attempt] after.cycle.sensor after.outcome ∧
        after.value = if attempt.taken then b else a := by
  intro after
  let attempt : Attempt := ⟨⟨q, failure⟩, (Sensor.write c.sensor q).1⟩
  have hattempted : Attempted c.sensor [attempt] (Sensor.write c.sensor q).2 := .cons .nil
  have hconcludes : Verdict.Concludes ([attempt].map Attempt.verdict) attempt.verdict := .single _
  refine ⟨attempt, ?_⟩
  have hafter : after = afterPush q failure taken a c := rfl
  unfold afterPush at hafter
  cases hwrite : Sensor.write c.sensor q with
  | mk answer sensor =>
      rw [hwrite] at hattempted
      cases answer with
      | ok _ =>
          rw [Cycle.push_of_taken hwrite] at hafter
          obtain ⟨hvalue, hsensor, houtcome⟩ := htaken { c with sensor }
          have hverdict : attempt.verdict = .ok () := by
            simp only [attempt, Attempt.verdict, hwrite]
          have hyes : attempt.taken = true := by
            simp only [attempt, Attempt.taken, hwrite]
            rfl
          rw [hverdict] at hconcludes
          rw [hafter, if_pos hyes]
          refine ⟨⟨rfl, hsensor.symm ▸ hattempted, ?_⟩, hvalue⟩
          show Verdict.Concludes _ (taken a { c with sensor }).outcome
          rw [houtcome]
          exact hconcludes
      | error r =>
          rw [Cycle.push_of_refused hwrite] at hafter
          have hverdict : attempt.verdict = .error (.sensor r.code failure) := by
            simp only [attempt, Attempt.verdict, hwrite, Rejection.code]
            cases r.cause <;> rfl
          have hno : attempt.taken = false := by
            simp only [attempt, Attempt.taken, hwrite]
            rfl
          rw [hverdict] at hconcludes
          rw [hafter, hno]
          exact ⟨⟨rfl, hattempted, hconcludes⟩, rfl⟩

namespace RegisterWrite

variable [Sensor S]

/-- The pushes of a list of entries. -/
def pushes (entries : List Json) : List Push :=
  entries.filterMap fun v => (ofJson? v).map fun r => ⟨property r, failure⟩

/-- **A list of entries is pushed as a whole, and those that are taken are kept.** -/
theorem pushAll_carriedOut {entries : List Json} (h : ∀ v ∈ entries, (ofJson? v).isSome) :
    ∀ (kept : List Fitting) (c : Cycle S H),
      let after := Step.all (entries.map push) kept c
      ∃ attempts,
        CarriedOut (pushes entries) c.sensor attempts after.cycle.sensor after.outcome ∧
          after.value.map property =
            kept.map property ++ (attempts.filter Attempt.taken).map (·.push.property) := by
  induction entries with
  | nil => exact fun kept c => ⟨[], .nil, (List.append_nil _).symm⟩
  | cons v rest ih =>
      obtain ⟨hfirst, hrest⟩ := List.forall_mem_cons.mp h
      obtain ⟨r, hr⟩ := Option.isSome_iff_exists.mp hfirst
      intro kept c after
      let keep : Step (List Fitting) S H := Step.become fun kept => kept ++ [r]
      have hkeep : ∀ c, (keep kept c).value = kept ++ [r] ∧
          (keep kept c).cycle.sensor = c.sensor ∧ (keep kept c).outcome = .ok () :=
        fun _ => ⟨rfl, rfl, rfl⟩
      obtain ⟨attempt, hcarried, hvalue⟩ := Step.afterPush_carriedOut (property r) failure hkeep c
      have hpush : push v kept c = Step.afterPush (property r) failure keep kept c := by
        rw [push_eq hr]
        rfl
      rw [← hpush] at hcarried hvalue
      obtain ⟨attempts, hcarried', hvalue'⟩ := ih hrest (push v kept c).value (push v kept c).cycle
      have hpushes : pushes (v :: rest) = [⟨property r, failure⟩] ++ pushes rest := by
        simp only [pushes, List.filterMap_cons, hr, Option.map_some, List.singleton_append]
      refine ⟨[attempt] ++ attempts, hpushes ▸ hcarried.append hcarried', ?_⟩
      have hproperty : attempt.push.property = property r := by
        rw [(List.singleton_inj.mp hcarried.pushes : attempt.push = _)]
      refine hvalue'.trans ?_
      rw [hvalue]
      by_cases htaken : attempt.taken = true
      · simp [htaken, hproperty]
      · simp [htaken]

/-- A list that is short enough replaces the one before by what has been taken of it. -/
theorem apply_carriedOut {entries : List Json} (hlength : entries.length ≤ maxEntries)
    (h : ∀ v ∈ entries, (ofJson? v).isSome) (old : List Fitting) (c : Cycle S H) :
    let after := apply entries old c
    ∃ attempts,
      CarriedOut (pushes entries) c.sensor attempts after.cycle.sensor after.outcome ∧
        after.value.map property = (attempts.filter Attempt.taken).map (·.push.property) := by
  intro after
  obtain ⟨attempts, hcarried, hvalue⟩ := pushAll_carriedOut h [] c
  let q : Progress (List Fitting) S H := Step.all (entries.map push) [] c
  have hafter : after =
      ⟨q.value, if q.value == old then q.cycle else q.cycle.raise, q.outcome⟩ := by
    simp only [after, apply, List.take_of_length_le hlength, q]
  have hsensor : after.cycle.sensor = q.cycle.sensor := by
    rw [hafter]
    simp only
    split <;> rfl
  rw [hsensor, hafter]
  exact ⟨attempts, hcarried, hvalue⟩

end RegisterWrite

namespace Picture

/-! ### What a candidate pushes -/

/-- What a candidate pushes: the scalars that it has as numbers, its register writes, and the
structured properties that it has as objects, each merged over what is known. -/
def pushes (p : Picture) (candidate : Object) : List Push :=
  (Scalar.all.filterMap fun s =>
    (Object.double? candidate s.field).map fun x => ⟨s.property x, s.failure⟩) ++
  (RegisterWrite.pushes ((Object.array? candidate "register_access").getD []) ++
  Structured.all.filterMap fun s =>
    (Object.object? candidate s.field).map fun fragment =>
      ⟨s.property (s.description.merged fragment (p.structured.get? s)), s.description.failure⟩)

namespace Turn

/-- What is pushed in a turn. -/
def pushes (candidate : Object) (p : Picture) : Turn → List Push
  | item i => ((i.asked? p candidate).map fun q => ⟨q, i.failure⟩).toList
  | registers => RegisterWrite.pushes ((Object.array? candidate "register_access").getD [])

/-- What is pushed in a turn depends on what its own slot holds. -/
theorem pushes_congr {t : Turn} {p p' : Picture} (h : t.held p' = t.held p) (candidate : Object) :
    t.pushes candidate p' = t.pushes candidate p := by
  cases t with
  | item i => rw [pushes, pushes, Item.asked?_congr h]
  | registers => rfl

/-- A turn pushes nothing but its own property. -/
theorem key_of_mem_pushes {t : Turn} {candidate : Object} {p : Picture} {x : Push}
    (h : x ∈ t.pushes candidate p) : x.property.key = t.key := by
  rcases t with (s | s) | _
  · obtain ⟨q, hq, rfl⟩ := Option.map_eq_some_iff.mp (Option.mem_toList.mp h)
    obtain ⟨y, -, rfl⟩ := Option.map_eq_some_iff.mp hq
    exact s.key_property y
  · obtain ⟨q, hq, rfl⟩ := Option.map_eq_some_iff.mp (Option.mem_toList.mp h)
    obtain ⟨fragment, -, rfl⟩ := Option.map_eq_some_iff.mp hq
    rfl
  · obtain ⟨v, -, hv⟩ := List.mem_filterMap.mp h
    obtain ⟨r, -, rfl⟩ := Option.map_eq_some_iff.mp hv
    rfl

end Turn

/-- The pushes of a candidate are those of its turns. -/
theorem pushes_turns (p : Picture) (candidate : Object) :
    p.pushes candidate = Turn.all.flatMap (Turn.pushes candidate p) := by
  have hitems : ∀ {γ : Type} (items : List γ) (item : γ → Item),
      (items.flatMap fun s => Turn.pushes candidate p (.item (item s))) =
        items.filterMap fun s =>
          ((item s).asked? p candidate).map fun q => ⟨q, (item s).failure⟩ := by
    intro γ items item
    rw [List.filterMap_eq_flatMap_toList]
    rfl
  rw [Turn.all, List.flatMap_append, List.flatMap_cons, List.flatMap_map, List.flatMap_map,
    hitems, hitems]
  simp only [Item.asked?, Option.map_map]
  rfl

/-! ### What a turn keeps -/

namespace Turn

variable [Sensor S]

/-- What some attempts make of the slot of a turn. -/
def Kept (candidate : Object) (attempts : List Attempt) : (t : Turn) → t.Held → t.Held → Prop
  | item _, old, new => (∀ a ∈ attempts, a.Keeps old new) ∧ (attempts = [] → new = old)
  | registers, old, new =>
    match Object.array? candidate "register_access" with
    | some _ => new.map RegisterWrite.property =
        (attempts.filter Attempt.taken).map (·.push.property)
    | none => new = old

/-- The turn of a property pushes it if it is asked for, and keeps it if it is taken. -/
theorem item_carriedOut (i : Item) (candidate : Object) (p : Picture) (c : Cycle S H) :
    let after := (item i).apply candidate p c
    ∃ attempts,
      CarriedOut ((item i).pushes candidate p) c.sensor attempts after.cycle.sensor
          after.outcome ∧
        (item i).Kept candidate attempts ((item i).held p) ((item i).held after.value) := by
  intro after
  simp only [after, i.apply_eq]
  cases hasked : i.asked? p candidate with
  | none =>
      refine ⟨[], ?_, List.forall_mem_nil _, fun _ => rfl⟩
      rw [pushes, hasked]
      exact .nil
  | some q =>
      have hrenew : ∀ c : Cycle S H,
          let renewed := Step.renew (fun p => i.value? p == some q) (fun p => i.put q p) p c
          renewed.value = (if i.value? p == some q then p else i.put q p) ∧
            renewed.cycle.sensor = c.sensor ∧ renewed.outcome = .ok () := by
        intro c renewed
        simp only [renewed, Step.renew]
        split <;> exact ⟨rfl, rfl, rfl⟩
      obtain ⟨attempt, hcarried, hvalue⟩ := Step.afterPush_carriedOut q i.failure hrenew c
      have hpushes : (item i).pushes candidate p = [⟨q, i.failure⟩] := by rw [pushes, hasked]; rfl
      refine ⟨[attempt], hpushes ▸ hcarried, ?_, fun h => absurd h (List.cons_ne_nil _ _)⟩
      rintro a ha
      rw [List.mem_singleton.mp ha]
      have hproperty : attempt.push.property = q := by
        rw [(List.singleton_inj.mp hcarried.pushes : attempt.push = _)]
      show attempt.Keeps (i.value? p) (i.value? (i.commit q p c).value)
      rw [show (i.commit q p c).value = _ from hvalue, Attempt.Keeps, hproperty]
      by_cases htaken : attempt.taken = true
      · rw [if_pos htaken, if_pos htaken]
        by_cases h : (i.value? p == some q) = true
        · rw [if_pos h]
          exact .inr ⟨rfl, h⟩
        · rw [if_neg h]
          exact .inl (Item.value?_put (Item.key_of_asked? hasked) p)
      · rw [if_neg htaken, if_neg htaken]

/-- **A turn pushes what it has to, and keeps what the sensor has taken.** -/
theorem apply_carriedOut {candidate : Object} (hreadable : Readable candidate) (t : Turn)
    (p : Picture) (c : Cycle S H) :
    let after := t.apply candidate p c
    ∃ attempts,
      CarriedOut (t.pushes candidate p) c.sensor attempts after.cycle.sensor after.outcome ∧
        t.Kept candidate attempts (t.held p) (t.held after.value) := by
  cases t with
  | item i => exact item_carriedOut i candidate p c
  | registers =>
      simp only [apply, applyRegisters]
      cases hentries : Object.array? candidate "register_access" with
      | none =>
          refine ⟨[], ?_, ?_⟩
          · rw [pushes, hentries]
            exact .nil
          · simp only [Kept, hentries]
            rfl
      | some entries =>
          obtain ⟨hlength, hdecode⟩ := hreadable entries hentries
          obtain ⟨attempts, hcarried, hvalue⟩ :=
            RegisterWrite.apply_carriedOut hlength hdecode p.registers c
          refine ⟨attempts, ?_, ?_⟩
          · rw [pushes, hentries]
            exact hcarried
          · simp only [Kept, hentries]
            exact hvalue

/-- Turns that come once each push what they have to, whatever the sensor says to the others. -/
theorem all_carriedOut {candidate : Object} (hreadable : Readable candidate) {turns : List Turn}
    (hturns : turns.Nodup) :
    ∀ (p : Picture) (c : Cycle S H),
      let after := Step.all (turns.map (apply candidate)) p c
      ∃ attempts,
        CarriedOut (turns.flatMap (pushes candidate p)) c.sensor attempts after.cycle.sensor
            after.outcome ∧
          (∀ t ∈ turns, t.Kept candidate (attempts.filter (·.push.property.key = t.key))
            (t.held p) (t.held after.value)) ∧
          ∀ t, t ∉ turns → t.held after.value = t.held p := by
  induction turns with
  | nil => exact fun p c => ⟨[], .nil, nofun, fun _ _ => rfl⟩
  | cons t rest ih =>
      rw [List.nodup_cons] at hturns
      intro p c
      let mid := t.apply candidate p c
      obtain ⟨own, hown, hkept⟩ := apply_carriedOut hreadable t p c
      obtain ⟨later, hlater, hkept', hothers⟩ := ih hturns.2 mid.value mid.cycle
      have hpushes : rest.flatMap (pushes candidate mid.value) =
          rest.flatMap (pushes candidate p) := by
        refine List.flatMap_congr fun t' ht' => pushes_congr (held_apply_of_ne ?_ p c) candidate
        rintro rfl
        exact hturns.1 ht'
      rw [hpushes] at hlater
      -- Among all attempts those of a turn are told by their key.
      have hownKey : ∀ a ∈ own, a.push.property.key = t.key := fun a ha =>
        key_of_mem_pushes (hown.pushes ▸ List.mem_map_of_mem ha)
      have hlaterKey : ∀ a ∈ later, ∃ t' ∈ rest, a.push.property.key = t'.key := by
        intro a ha
        have hmem : a.push ∈ rest.flatMap (pushes candidate p) :=
          hlater.pushes ▸ List.mem_map_of_mem ha
        obtain ⟨t', ht', hpush⟩ := List.mem_flatMap.mp hmem
        exact ⟨t', ht', key_of_mem_pushes hpush⟩
      refine ⟨own ++ later, hown.append hlater, fun t' ht' => ?_, fun t' ht' => ?_⟩
      · rw [List.filter_append]
        by_cases heq : t' = t
        · subst heq
          have hfirst : own.filter (·.push.property.key = t'.key) = own :=
            List.filter_eq_self.mpr fun a ha => by simpa using hownKey a ha
          have hnone : later.filter (·.push.property.key = t'.key) = [] := by
            refine List.filter_eq_nil_iff.mpr fun a ha hkey => ?_
            obtain ⟨t'', ht'', hkey'⟩ := hlaterKey a ha
            have hsame : t'' = t' := key_injective (hkey'.symm.trans (by simpa using hkey))
            exact hturns.1 (hsame ▸ ht'')
          rw [hfirst, hnone, List.append_nil]
          exact (hothers t' hturns.1).symm ▸ hkept
        · have hrest : t' ∈ rest := (List.mem_cons.mp ht').resolve_left heq
          have hnone : own.filter (·.push.property.key = t'.key) = [] := by
            refine List.filter_eq_nil_iff.mpr fun a ha hkey => heq ?_
            exact key_injective ((by simpa using hkey : _ = t'.key).symm.trans (hownKey a ha))
          rw [hnone, List.nil_append, ← held_apply_of_ne heq p c]
          exact hkept' t' hrest
      · rw [List.mem_cons, not_or] at ht'
        exact (hothers t' ht'.2).trans (held_apply_of_ne ht'.1 p c)

end Turn

/-! ### A candidate that passes -/

section Passes

variable {p : Picture} {candidate : Object}

/-- A field of a candidate that passes is of the kind that it has to be. -/
theorem kind_of_check (h : p.check candidate = .ok ()) {name : String} {k : Kind}
    (hrule : Rule.kind name k ∈ rules) {v : Json} (hv : Object.field? candidate name = some v) :
    v.kind = k := by
  obtain ⟨hobject, -⟩ := Verdict.bind_eq_ok.mp h
  exact eq_of_beq (Rule.admits_of_checkAll (Check.of_object hobject).1 hrule hv)

theorem number_mem_rules (s : Scalar) : Rule.kind s.field .number ∈ rules := by
  have hown : Rule.kind s.field .number ∈ s.rules := by
    cases s <;> exact List.mem_cons_self
  have hall : s ∈ Scalar.all := by cases s <;> decide
  exact List.mem_append_left _ (List.mem_append_left _ (List.mem_flatMap.mpr ⟨s, hall, hown⟩))

theorem object_mem_rules (s : Structured) : Rule.kind s.field .object ∈ rules := by
  have hall : s ∈ Structured.all := by cases s <;> decide
  exact List.mem_append_left _ (List.mem_append_right _ (List.mem_map.mpr ⟨s, hall, rfl⟩))

theorem array_mem_rules : Rule.kind "register_access" .array ∈ rules :=
  List.mem_append_right _ List.mem_cons_self

/-- Everything that a candidate has for the picture can be pushed. -/
theorem pushable_of_check (h : p.check candidate = .ok ()) :
    (∀ s : Scalar, Object.has candidate s.field →
      (Object.double? candidate s.field).isSome) ∧
    (∀ s : Structured, Object.has candidate s.field →
      (Object.object? candidate s.field).isSome) ∧
    (Object.has candidate "register_access" →
      ∃ entries, Object.array? candidate "register_access" = some entries ∧
        ∀ v ∈ entries, (RegisterWrite.ofJson? v).isSome) := by
  refine ⟨fun s hs => ?_, fun s hs => ?_, fun hs => ?_⟩
  · obtain ⟨v, hv⟩ := Option.isSome_iff_exists.mp hs
    have hkind : v.kind = .number := kind_of_check h (number_mem_rules s) hv
    rw [Object.double?_of_field? hv]
    cases v with
    | number n => rfl
    | _ => cases hkind
  · obtain ⟨v, hv⟩ := Option.isSome_iff_exists.mp hs
    have hkind : v.kind = .object := kind_of_check h (object_mem_rules s) hv
    cases v with
    | object members =>
        rw [Object.object?_of_field? hv]
        rfl
    | _ => cases hkind
  · obtain ⟨v, hv⟩ := Option.isSome_iff_exists.mp hs
    have hkind : v.kind = .array := kind_of_check h array_mem_rules hv
    cases v with
    | array entries =>
        have hentries := Object.array?_of_field? hv
        exact ⟨entries, hentries, (readable_of_check h entries hentries).2⟩
    | _ => cases hkind

end Passes

/-- **What one application pushes, keeps and reports.**  Of a candidate that passes, every scalar,
every register write and every structured property that it has is pushed once, in this order, and
each push is attempted whatever the sensor has said to the others.  A slot takes what has been
taken and otherwise stays as it was; the list of register writes becomes what has been taken of
it.  The outcome is good if nothing has been refused, and otherwise is that of the last refusal. -/
theorem apply_carries_out [Sensor S] {p : Picture} {candidate : Object}
    (h : p.check candidate = .ok ()) (c : Cycle S H) :
    let after := apply candidate p c
    ((∀ s : Scalar, Object.has candidate s.field →
        (Object.double? candidate s.field).isSome) ∧
      (∀ s : Structured, Object.has candidate s.field →
        (Object.object? candidate s.field).isSome) ∧
      (Object.has candidate "register_access" →
        ∃ entries, Object.array? candidate "register_access" = some entries ∧
          ∀ v ∈ entries, (RegisterWrite.ofJson? v).isSome)) ∧
    ∃ attempts : List Attempt,
      attempts.map Attempt.push = p.pushes candidate ∧
      Attempted c.sensor attempts after.cycle.sensor ∧
      (∀ i : Item,
        (∀ a ∈ attempts, a.push.property.key = i.key →
          a.Keeps (i.value? p) (i.value? after.value)) ∧
        ((∀ a ∈ attempts, a.push.property.key ≠ i.key) → i.value? after.value = i.value? p)) ∧
      (if Object.has candidate "register_access" then
        after.value.registers.map RegisterWrite.property =
          (attempts.filter fun a => a.taken && a.push.property.key == .registerAccess).map
            (·.push.property)
      else after.value.registers = p.registers) ∧
      Verdict.Concludes (attempts.map Attempt.verdict) after.outcome := by
  intro after
  have hpushable := pushable_of_check h
  refine ⟨hpushable, ?_⟩
  obtain ⟨attempts, hcarried, hkept, -⟩ :=
    Turn.all_carriedOut (readable_of_check h) Turn.nodup_all p c
  have hturns : Step.all (Turn.all.map (Turn.apply candidate)) p c = after := by
    rw [← apply_turns]
  rw [hturns] at hcarried
  simp only [hturns] at hkept
  refine ⟨attempts, hcarried.pushes.trans (p.pushes_turns candidate).symm, hcarried.attempted,
    fun i => ⟨fun a ha hkey => ?_, fun hnone => ?_⟩, ?_, hcarried.concludes⟩
  · obtain ⟨hkeeps, -⟩ := hkept (.item i) (Turn.mem_all _)
    exact hkeeps a (List.mem_filter.mpr ⟨ha, decide_eq_true hkey⟩)
  · obtain ⟨-, hsame⟩ := hkept (.item i) (Turn.mem_all _)
    exact hsame (List.filter_eq_nil_iff.mpr fun a ha hkey => hnone a ha (of_decide_eq_true hkey))
  · have hregisters := hkept .registers (Turn.mem_all _)
    by_cases hhas : Object.has candidate "register_access" = true
    · obtain ⟨entries, hentries, -⟩ := hpushable.2.2 hhas
      rw [if_pos hhas]
      simp only [Turn.Kept, hentries, List.filter_filter] at hregisters
      exact hregisters
    · have habsent : Object.array? candidate "register_access" = none := by
        rw [Object.array?, Option.not_isSome_iff_eq_none.mp hhas]
        rfl
      rw [if_neg hhas]
      simp only [Turn.Kept, habsent] at hregisters
      exact hregisters

/-- Of four pushes the second and the last are refused.  The third is made in between and taken,
and the last refusal is reported. -/
theorem apply_carries_out_refused :
    let p : Picture := {}
    let candidate : Object :=
      [("digital_zoom", .word 2), ("exposure_mode", .word 3),
        ("frame_rate", .object [("num", .word 30)]),
        ("register_access", .array [.object [("address", .string "0x10"), ("bit_length", .word 0),
          ("data", .string "511"), ("id", .word 7)]])]
    let sensor : Simulator := Simulator.powerOn.refuse .exposureMode .notAvailable
    let c : Cycle Simulator Unit := ⟨{}, sensor, (), .idle, "1", {}⟩
    let after := apply candidate p c
    p.check candidate = .ok () ∧ ∃ attempts : List Attempt,
      attempts.map (·.push.property.key) =
        [.digitalZoom, .exposureMode, .registerAccess, .frameRate] ∧
      Attempted sensor attempts after.cycle.sensor ∧
      after.value.registers.map RegisterWrite.property =
        (attempts.filter fun a => a.taken && a.push.property.key == .registerAccess).map
          (·.push.property) ∧
      Verdict.Concludes (attempts.map Attempt.verdict)
        (.error (.sensor .outOfRange FrameRate.description.failure)) := by
  intro p candidate sensor c after
  have hcheck : p.check candidate = .ok () := by decide +kernel
  have hpushes : (p.pushes candidate).map (·.property.key) =
      [.digitalZoom, .exposureMode, .registerAccess, .frameRate] := by decide +kernel
  have houtcome : (apply candidate p c).outcome =
      .error (.sensor .outOfRange FrameRate.description.failure) := by decide +kernel
  have hall := apply_carries_out hcheck c
  simp only [houtcome] at hall
  obtain ⟨-, attempts, hpushed, hattempted, -, hregisters, hconcludes⟩ := hall
  refine ⟨hcheck, attempts, ?_, hattempted, ?_, hconcludes⟩
  · rw [← hpushes, ← hpushed, List.map_map]
    rfl
  · rwa [if_pos (show Object.has candidate "register_access" = true by decide +kernel)]
      at hregisters

end Picture

end DeviceConfig
