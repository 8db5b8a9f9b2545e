/-
The picture section, one turn after the other.

Applying a candidate to the section is a list of turns, one for each scalar, one for the register
writes and one for each structured property.  A turn reads one field of the candidate, writes one
property of the sensor and keeps what becomes of it in a slot of its own.  No two turns share any
of these, so what a turn does can be told without the others.

The turn of a property is the same for all of them.  What is asked for is pushed, and it is put in
its slot if the sensor takes it and something else was there.
-/
import Mathlib.Data.List.Nodup
import DeviceConfig.Proofs.Steps

namespace DeviceConfig

variable {α S H : Type}

/-! ### The properties -/

/-- Different values are different properties. -/
theorem Structured.property_injective (s : Structured) : Function.Injective s.property := by
  intro v w hvw
  injection hvw

/-- A picture property whose value the document keeps. -/
inductive Picture.Item where
  | scalar (s : Scalar)
  | structured (s : Structured)
  deriving DecidableEq

namespace Picture

namespace Item

/-- The sensor property. -/
def key : Item → Key
  | scalar s => s.key
  | structured s => s.key

/-- What a document holds for the property. -/
def value? (p : Picture) : Item → Option Property
  | scalar s => p.scalars.get? s
  | structured s => (p.structured.get? s).map s.property

theorem get?_of_value? {s : Structured} {p p' : Picture}
    (h : (structured s).value? p' = (structured s).value? p) :
    p'.structured.get? s = p.structured.get? s := Option.map_injective s.property_injective h

theorem key_injective {i j : Item} (h : i.key = j.key) : i = j := by
  cases i with
  | scalar s => cases j with
    | scalar t => cases s <;> cases t <;> simp_all [key, Scalar.key]
    | structured t => cases s <;> cases t <;> cases h
  | structured s => cases j with
    | scalar t => cases s <;> cases t <;> cases h
    | structured t => cases s <;> cases t <;> simp_all [key, Structured.key]

theorem key_registerAccess_ne (i : Item) : Key.registerAccess ≠ i.key := by
  rcases i with s | s <;> cases s <;> exact nofun

theorem key_inputDataType_ne (i : Item) : Key.inputDataType ≠ i.key := by
  rcases i with s | s <;> cases s <;> exact nofun

/-- A scalar that is put in place leaves every other property alone. -/
theorem value?_insert_of_ne {i : Item} {s : Scalar} (h : i ≠ .scalar s) (p : Picture)
    (q : Property) : i.value? { p with scalars := p.scalars.insert s q } = i.value? p := by
  cases i with
  | structured t => rfl
  | scalar t =>
      have hts : t ≠ s := fun heq => h (heq ▸ rfl)
      exact Slots.get?_insert_of_ne p.scalars q hts

/-- A structured property that is put in place leaves every other property alone. -/
theorem value?_set_of_ne {i : Item} {s : Structured} (h : i ≠ .structured s) (p : Picture)
    (v : Option s.Value) :
    i.value? { p with structured := p.structured.set s v } = i.value? p := by
  cases i with
  | scalar t => rfl
  | structured t =>
      have hts : t ≠ s := fun heq => h (heq ▸ rfl)
      show ((p.structured.set s v).get? t).map t.property = (p.structured.get? t).map t.property
      rw [Slots.get?_set_of_ne _ _ hts]

theorem value?_set_self (s : Structured) (p : Picture) (v : Option s.Value) :
    (structured s).value? { p with structured := p.structured.set s v } = v.map s.property := by
  show ((p.structured.set s v).get? s).map s.property = v.map s.property
  rw [Slots.get?_set_self]

/-- What a candidate asks a property to be. -/
def asked? (p : Picture) (candidate : Object) : Item → Option Property
  | scalar s => (Object.double? candidate s.field).map s.property
  | structured s => (Object.object? candidate s.field).map fun fragment =>
      s.property (s.description.merged fragment (p.structured.get? s))

/-- What is asked for depends on the slot of the property alone. -/
theorem asked?_congr {i : Item} {p p' : Picture} (h : i.value? p' = i.value? p)
    (candidate : Object) : i.asked? p' candidate = i.asked? p candidate := by
  cases i with
  | scalar s => rfl
  | structured s => simp only [asked?, get?_of_value? h]

end Item

end Picture

/-! ### Lists of steps -/

namespace Step

theorem andThen_assoc (f g h : Step α S H) :
    andThen (andThen f g) h = andThen f (andThen g h) := by
  funext a c
  let p := f a c
  let q := g p.value p.cycle
  let r := h q.value q.cycle
  have houtcome : (p.outcome.lastFailure q.outcome).lastFailure r.outcome =
      p.outcome.lastFailure (q.outcome.lastFailure r.outcome) := by
    rcases r.outcome with e | _ <;> rfl
  exact congrArg (fun outcome => { r with outcome }) houtcome

theorem all_append (earlier later : List (Step α S H)) :
    all (earlier ++ later) = andThen (all earlier) (all later) := by
  induction earlier with
  | nil => exact (skip_andThen _).symm
  | cons f rest ih =>
      show andThen f (all (rest ++ later)) = andThen (andThen f (all rest)) (all later)
      rw [ih, andThen_assoc]

end Step

namespace Picture

/-! ### The turns -/

/-- One turn in the application of a candidate. -/
inductive Turn where
  | item (i : Item)
  | registers
  deriving DecidableEq

namespace Turn

/-- Every turn, in the order in which they are taken. -/
def all : List Turn :=
  Scalar.all.map (fun s => item (.scalar s)) ++
    registers :: Structured.all.map fun s => item (.structured s)

/-- The field of a candidate that the turn reads. -/
def field : Turn → String
  | item (.scalar s) => s.field
  | item (.structured s) => s.field
  | registers => "register_access"

/-- The property that the turn writes. -/
def key : Turn → Key
  | item i => i.key
  | registers => .registerAccess

theorem mem_all (t : Turn) : t ∈ all := by
  rcases t with (s | s) | _
  · cases s <;> decide
  · cases s <;> decide
  · decide

theorem nodup_all : all.Nodup := by decide

theorem key_injective {t t' : Turn} (h : t.key = t'.key) : t = t' :=
  List.inj_on_of_nodup_map (by decide : (all.map key).Nodup) t.mem_all t'.mem_all h

theorem key_inputDataType_ne (t : Turn) : Key.inputDataType ≠ t.key := by
  rcases t with (s | s) | _
  · cases s <;> nofun
  · cases s <;> nofun
  · nofun

/-- A sensor property that no turn writes is that of the ports. -/
theorem eq_inputDataType {k : Key} (h : ∀ t : Turn, k ≠ t.key) : k = .inputDataType := by
  have hall : ∀ k : Key, k = .inputDataType ∨ k ∈ all.map key := by
    intro k
    cases k <;> decide
  refine (hall k).resolve_right fun hk => ?_
  obtain ⟨t, -, ht⟩ := List.mem_map.mp hk
  exact h t ht.symm

/-- What the turn does. -/
def apply [Sensor S] (candidate : Object) : Turn → Step Picture S H
  | item (.scalar s) =>
    Step.on scalars (fun known p => { p with scalars := known }) (s.apply candidate)
  | item (.structured s) => applyStructured candidate s
  | registers => applyRegisters candidate

end Turn

/-- **The section is applied turn by turn.** -/
theorem apply_turns [Sensor S] (candidate : Object) :
    (apply candidate : Step Picture S H) =
      Step.all (Turn.all.map (Turn.apply candidate)) := by
  have hpart : Step.Part scalars fun known (p : Picture) => { p with scalars := known } :=
    ⟨fun _ _ => rfl, fun _ => rfl, fun _ _ _ => rfl⟩
  have hscalars : (applyScalars candidate : Step Picture S H) = Step.all
      ((Scalar.all.map fun s => Turn.item (.scalar s)).map (Turn.apply candidate)) := by
    unfold applyScalars
    rw [hpart.on_all, List.map_map, List.map_map]
    rfl
  unfold Turn.all
  rw [List.map_append, Step.all_append, ← hscalars, List.map_cons, List.map_map]
  rfl

/-! ### The turn of a property -/

namespace Item

/-- What the response says when the sensor refuses a property. -/
def failure : Item → String
  | scalar s => s.failure
  | structured s => s.description.failure

/-- A property is put in its slot. -/
def put (q : Property) (p : Picture) : Item → Picture
  | scalar s => { p with scalars := p.scalars.insert s q }
  | structured s => { p with structured := p.structured.set s (q.as? s.key) }

theorem value?_put {i : Item} {q : Property} (h : q.key = i.key) (p : Picture) :
    i.value? (i.put q p) = some q := by
  cases i with
  | scalar s => exact Slots.get?_insert_self p.scalars s q
  | structured s =>
      obtain ⟨key, v⟩ := q
      obtain rfl : key = s.key := h
      exact (value?_set_self s p _).trans (congrArg _ (Property.as?_self ⟨s.key, v⟩))

theorem value?_put_of_ne {i j : Item} (h : j ≠ i) (q : Property) (p : Picture) :
    j.value? (i.put q p) = j.value? p := by
  cases i with
  | scalar s => exact value?_insert_of_ne h p q
  | structured s => exact value?_set_of_ne h p (q.as? s.key)

theorem registers_put (i : Item) (q : Property) (p : Picture) :
    (i.put q p).registers = p.registers := by
  cases i <;> rfl

theorem key_of_asked? {i : Item} {p : Picture} {candidate : Object} {q : Property}
    (h : i.asked? p candidate = some q) : q.key = i.key := by
  cases i with
  | scalar s =>
      obtain ⟨x, -, rfl⟩ := Option.map_eq_some_iff.mp h
      exact s.key_property x
  | structured s =>
      obtain ⟨fragment, -, rfl⟩ := Option.map_eq_some_iff.mp h
      rfl

/-- What is done in the turn of a property, given what it is asked to be. -/
def commit [Sensor S] (i : Item) (q : Property) : Step Picture S H :=
  Step.afterPush q i.failure (Step.renew (fun p => i.value? p == some q) fun p => i.put q p)

/-- A section stays as it is, or the property is put in its slot. -/
theorem commit_value [Sensor S] (i : Item) (q : Property) (p : Picture) (c : Cycle S H) :
    (i.commit q p c).value = p ∨ (i.commit q p c).value = i.put q p :=
  Step.afterPush_value q i.failure _ (fun p => i.put q p) p c

/-- **In its turn a property is pushed if it is asked for**, and put in its slot if it is taken. -/
theorem apply_eq [Sensor S] (i : Item) (candidate : Object) (p : Picture) (c : Cycle S H) :
    (Turn.item i).apply candidate p c =
      Step.whenSome (i.asked? p candidate) i.commit p c := by
  cases i with
  | scalar s =>
      simp only [Turn.apply, Scalar.apply, asked?]
      cases Object.double? candidate s.field with
      | none => rfl
      | some x =>
          have hput : ∀ p : Picture, { p with scalars := p.scalars } = p := fun _ => rfl
          exact congrFun (congrFun (Step.on_afterPush hput _ _ _ _) p) c
  | structured s =>
      simp only [Turn.apply, applyStructured, asked?]
      cases Object.object? candidate s.field with
      | none => rfl
      | some fragment =>
          let v := s.description.merged fragment (p.structured.get? s)
          have hput : ∀ p : Picture,
              { p with structured := p.structured.set s (p.structured.get? s) } = p := by
            intro p
            rw [Slots.set_get?]
          have hsame : ∀ p : Picture, (p.structured.get? s == some v) =
              ((structured s).value? p == some (s.property v)) := by
            intro p
            show _ = ((p.structured.get? s).map s.property == some (s.property v))
            cases p.structured.get? s with
            | none => rfl
            | some w => exact (Property.mk_beq_mk s.key w v).symm
          have hnew : (s.property v).as? s.key = some v := Property.as?_self _
          calc
            _ = Step.on (fun p => p.structured.get? s)
                  (fun known p => { p with structured := p.structured.set s known }) (s.push v)
                  p c := rfl
            _ = (structured s).commit (s.property v) p c := by
                rw [Structured.push_eq, Step.on_afterPush hput]
                simp only [commit, failure, hsame, put, hnew]

end Item

namespace Turn

variable [Sensor S] {candidate : Object}

/-- Without its field there is nothing to do in a turn. -/
theorem apply_of_absent {t : Turn} (h : Object.field? candidate t.field = none) :
    (t.apply candidate : Step Picture S H) = Step.skip := by
  rcases t with (s | s) | _
  · replace h : Object.field? candidate s.field = none := h
    simp only [apply, Scalar.apply, Object.double?, h]
    rfl
  · replace h : Object.field? candidate s.field = none := h
    simp only [apply, applyStructured, Object.object?, h]
    rfl
  · replace h : Object.field? candidate "register_access" = none := h
    simp only [apply, applyRegisters, Object.array?, h]
    rfl

/-! ### What a turn keeps -/

/-- What the slot of a turn holds. -/
def Held : Turn → Type
  | item _ => Option Property
  | registers => List RegisterWrite.Fitting

def held (p : Picture) : (t : Turn) → t.Held
  | item i => i.value? p
  | registers => p.registers

/-- A section is what is held in its slots. -/
theorem ext_held {p p' : Picture} (h : ∀ t : Turn, t.held p' = t.held p) : p' = p := by
  obtain ⟨scalars, structured, registers⟩ := p
  obtain ⟨scalars', structured', registers'⟩ := p'
  obtain rfl : scalars' = scalars := Slots.ext (funext fun s => h (item (.scalar s)))
  obtain rfl : registers' = registers := h Turn.registers
  obtain rfl : structured' = structured :=
    Slots.ext (funext fun s => Item.get?_of_value? (h (item (.structured s))))
  rfl

/-- **A turn leaves the slots of all others alone.** -/
theorem held_apply_of_ne {t t' : Turn} (h : t' ≠ t) (p : Picture) (c : Cycle S H) :
    t'.held (t.apply candidate p c).value = t'.held p := by
  cases t with
  | item i =>
      rw [i.apply_eq]
      cases i.asked? p candidate with
      | none => rfl
      | some q =>
          show t'.held (i.commit q p c).value = t'.held p
          rcases i.commit_value q p c with hsame | hnew
          · rw [hsame]
          · rw [hnew]
            cases t' with
            | item j => exact Item.value?_put_of_ne (fun heq => h (congrArg item heq)) q p
            | registers => exact i.registers_put q p
  | registers =>
      show t'.held (applyRegisters candidate p c).value = t'.held p
      unfold applyRegisters
      cases Object.array? candidate "register_access" with
      | none => rfl
      | some entries =>
          rcases t' with (s | s) | _
          · rfl
          · rfl
          · exact absurd rfl h

/-- Of the slots, only those are not what they were whose turns find their fields. -/
theorem held_apply_of_absent {t : Turn} (h : Object.field? candidate t.field = none)
    (p : Picture) (c : Cycle S H) : t.held (Picture.apply candidate p c).value = t.held p := by
  rw [apply_turns]
  have hcourse : Step.Course fun p (_ : Cycle S H) p' _ => t.held p' = t.held p :=
    ⟨fun _ _ => rfl, fun h h' => h'.trans h⟩
  refine hcourse.all (fun f hf => ?_) p c
  obtain ⟨t', -, rfl⟩ := List.mem_map.mp hf
  by_cases ht : t = t'
  · subst ht
    rw [apply_of_absent h]
    exact fun _ _ => rfl
  · exact fun p c => held_apply_of_ne ht p c

end Turn

end Picture

/-! ### The sensor on the way -/

namespace Sensor.Course

open Picture

variable [Sensor S] {K : Property → Prop} {R : S → S → Prop} {candidate : Object}

/-- A property reaches the sensor as what it is asked to be. -/
theorem item (h : Course K R) {i : Item} {p : Picture}
    (hK : ∀ q, i.asked? p candidate = some q → K q) (c : Cycle S H) :
    R c.sensor ((Turn.item i).apply candidate p c).cycle.sensor := by
  rw [i.apply_eq]
  cases hasked : i.asked? p candidate with
  | none => exact h.refl c.sensor
  | some q => exact h.afterPush (hK q hasked) i.failure (Step.renew_sensor _ _) p c

/-- **A turn reaches the sensor with its own property only.** -/
theorem turn (h : Course K R) {t : Turn} (hK : ∀ q, q.key = t.key → K q) :
    Step.Leads (fun _ (c : Cycle S H) _ c' => R c.sensor c'.sensor) (t.apply candidate) := by
  cases t with
  | item i => exact fun p c => h.item (fun q hq => hK q (Item.key_of_asked? hq)) c
  | registers => exact h.steps.whenSome fun entries _ p c => h.registers hK entries p.registers c

end Sensor.Course

end DeviceConfig
