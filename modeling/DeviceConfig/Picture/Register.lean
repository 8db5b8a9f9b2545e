/-
Register writes in a document.

A document lists at most four writes, with data cut down to their registers.  Applying a list
replaces the one before: each entry is pushed in order, and those that the sensor takes are kept.
-/
import DeviceConfig.Cycle
import DeviceConfig.Rule
import DeviceConfig.Text.Digits

namespace DeviceConfig

namespace RegisterWrite

variable {S H : Type}

/-- How many writes a document may list. -/
def maxEntries : Nat := 4

/-- The fields that an entry has to have. -/
def fields : List String := ["bit_length", "id", "address", "data"]

def rules : List Rule :=
  Rule.range "bit_length" 0 3 ++
    [.atLeast "id" 0, .atMost "id" 4294967295, .number "id",
      .kind "address" .string, .kind "data" .string]

/-- What the response says of an entry that is not complete. -/
def missing : String :=
  "Some register access property missing. " ++
    "Please set valid values for bit_length, id, address and data."

/-- What the response says of an entry that cannot be carried out. -/
def failure : String :=
  "Register access property failed to be set. " ++
    "Please use valid values for bit_length, id, address and data."

/-- The digits of an address after its optional mark. -/
def addressDigits : List Char → List Char
  | '0' :: 'x' :: digits | '0' :: 'X' :: digits => digits
  | digits => digits

/-- The address that a text denotes in hexadecimal. -/
def address? (text : String) : Option UInt64 := Text.long? 16 (addressDigits text.toList)

/-- The data that a text denotes in decimal. -/
def data? (text : String) : Option UInt64 := Text.long? 10 text.toList

/-- The write that an entry describes. -/
def ofEntry? (entry : Object) : Option Fitting := do
  let width ← (Object.word? entry "bit_length").bind Width.ofIndex?
  let data ← (Object.string? entry "data").bind data?
  let id ← Object.word? entry "id"
  let address ← (Object.string? entry "address").bind address?
  some ⟨{ width, id, address, data := width.truncate data }, width.toNat_truncate_lt data⟩

/-- The write that a value describes. -/
def ofJson? (v : Json) : Option Fitting := v.object?.bind ofEntry?

/-- The verdict on one entry. -/
def checkEntry (v : Json) : Verdict :=
  match v with
  | .object entry => do
    Rule.checkAll rules entry
    if fields.any fun name => !Object.has entry name then
      .error (.invalid missing)
    else if ((Object.string? entry "address").bind address?).isNone then
      .error (.invalid "address not a hexadecimal string")
    else if ((Object.string? entry "data").bind data?).isNone then
      .error (.invalid "data not a decimal string")
    else .ok ()
  | _ => .error (.invalid missing)

/-- The verdict on a list of entries. -/
def check (entries : List Json) : Verdict :=
  if maxEntries < entries.length then
    .error (.invalid
      s!"register_access array ({entries.length}) over max length ({maxEntries}).")
  else entries.forM checkEntry

/-- The document value of a write. -/
def toJson (r : RegisterWrite) : Json :=
  .ofMembers
    [("bit_length", .word r.width.index), ("id", .word r.id),
      ("address", .string (Text.hex 16 r.address.toNat)),
      ("data", .string (toString r.data.toNat))]

/-- The document value of a list of writes. -/
def listToJson (writes : List Fitting) : Json := .array (writes.map fun r => toJson r.val)

/-- Carries out one entry and adds it to those that the sensor took. -/
def push [Sensor S] (v : Json) : Step (List Fitting) S H := fun taken c =>
  match ofJson? v with
  | none => ⟨taken, c, .error (.invalid failure)⟩
  | some r =>
    match c.push ⟨.registerAccess, r.val⟩ failure with
    | (.ok (), c) => ⟨taken ++ [r], c, .ok ()⟩
    | (.error e, c) => ⟨taken, c, .error e⟩

/-- Carries out a list of entries and keeps those that the sensor took. -/
def apply [Sensor S] (entries : List Json) : Step (List Fitting) S H := fun old c =>
  let p := Step.all ((entries.take maxEntries).map push) [] c
  ⟨p.value, if p.value == old then p.cycle else p.cycle.raise, p.outcome⟩

end RegisterWrite

end DeviceConfig
