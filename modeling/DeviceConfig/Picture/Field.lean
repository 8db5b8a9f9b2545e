/-
Values made of fields.

A `Description` says how a value appears in a document: which fields it has, which rules
they obey and how they are shown and set.  Merging a candidate sets the fields that it has
as numbers and leaves the others alone.
-/
import DeviceConfig.Check

namespace DeviceConfig

/-- A field of values of some type. -/
structure Field (α : Type) where
  name : String
  rules : List Rule
  /-- The document value of the field. -/
  toJson : α → Json
  /-- The value with the field set from a number. -/
  set : Double → α → α

namespace Field

variable {α : Type}

/-- An unsigned word under some rules. -/
def word (name : String) (rules : List Rule) (get : α → UInt32) (put : UInt32 → α → α) :
    Field α :=
  ⟨name, rules, fun a => .word (get a), fun x => put x.toWord⟩

/-- An unsigned word. -/
def natural (name : String) (get : α → UInt32) (put : UInt32 → α → α) : Field α :=
  word name (Rule.natural name) get put

/-- An unsigned word within limits. -/
def range (name : String) (low high : Double) (get : α → UInt32) (put : UInt32 → α → α) :
    Field α :=
  word name (Rule.range name low high) get put

/-- Any number, in single precision. -/
def single (name : String) (get : α → Single) (put : Single → α → α) : Field α :=
  ⟨name, [.number name], fun a => .single (get a), fun x => put (Single.ofDouble x)⟩

@[simp] theorem set_word (name : String) (rules : List Rule) (get : α → UInt32)
    (put : UInt32 → α → α) (x : Double) (a : α) :
    (word name rules get put).set x a = put x.toWord a := rfl

@[simp] theorem set_single (name : String) (get : α → Single) (put : Single → α → α)
    (x : Double) (a : α) : (single name get put).set x a = put (Single.ofDouble x) a := rfl

/-- The value with the field set if a candidate has a number for it. -/
def merge (candidate : Object) (a : α) (f : Field α) : α :=
  match Object.double? candidate f.name with
  | some x => f.set x a
  | none => a

end Field

/-- How values of some type appear in a document. -/
structure Description (α : Type) where
  /-- What the response says when the sensor refuses a value. -/
  failure : String
  fields : List (Field α)
  /-- The value that a first candidate is merged over. -/
  initial : α
  /-- Conditions on a candidate beyond the rules of its fields. -/
  checkCandidate : Check := Check.anything
  /-- Conditions on a whole value. -/
  checkValue : α → Verdict := fun _ => .ok ()

namespace Description

variable {α : Type}

/-- The rules of all fields. -/
def rules (d : Description α) : List Rule := d.fields.flatMap Field.rules

/-- The value with the fields of a candidate set. -/
def merge (d : Description α) (candidate : Object) (a : α) : α :=
  d.fields.foldl (Field.merge candidate) a

/-- A candidate merged over what is known. -/
def merged (d : Description α) (candidate : Object) (known : Option α) : α :=
  d.merge candidate (known.getD d.initial)

/-- What every field keeps is kept by a merge. -/
theorem merge_keeps {d : Description α} {P : α → Prop} {fragment : Object}
    (h : ∀ f ∈ d.fields, ∀ b, P b → P (Field.merge fragment b f)) {a : α} (ha : P a) :
    P (d.merge fragment a) := by
  have hfold : ∀ (fields : List (Field α)) (b : α), (∀ f ∈ fields, f ∈ d.fields) → P b →
      P (fields.foldl (Field.merge fragment) b) := by
    intro fields
    induction fields with
    | nil => intro b _ hb; exact hb
    | cons f rest ih =>
        intro b hsub hb
        exact ih _ (fun g hg => hsub g (by simp [hg])) (h f (hsub f (by simp)) b hb)
  exact hfold d.fields a (fun _ hf => hf) ha

/-- The verdict on a candidate, given what is known. -/
def check (d : Description α) (known : Option α) : Check := fun candidate => do
  Rule.checkAll d.rules candidate
  d.checkCandidate candidate
  d.checkValue (d.merged candidate known)

/-- The document value of a value. -/
def valueToJson (d : Description α) (a : α) : Json :=
  .ofMembers (d.fields.map fun f => (f.name, f.toJson a))

/-- The document value of what is known: an empty object as long as that is nothing. -/
def toJson (d : Description α) (known : Option α) : Json :=
  match known with
  | some a => d.valueToJson a
  | none => .object []

end Description

end DeviceConfig
