/-
The response section.

A `Record` is what the section says.  A `Reply` is the section of a living document: each
write to it raises the flag that a notification is due, even if nothing changes, and only
`Reply.reset` does not.  An `Envelope` is a record on its own, as applications report it.
-/
import DeviceConfig.Json.Text
import DeviceConfig.Json.Written
import DeviceConfig.Response.Error

namespace DeviceConfig

/-- The answer to one request. -/
structure Record where
  resId : String := ""
  code : UInt32 := 0
  detail : String := ""
  deriving DecidableEq, Inhabited

/-- The document value of a record. -/
def Record.toJson (r : Record) : Json :=
  .ofMembers [("res_id", .string r.resId), ("code", .word r.code), ("detail_msg", .string r.detail)]

/-- The response section, and whether a notification is due. -/
structure Reply where
  resId : String := ""
  code : Code := .ok
  detail : String := ""
  /-- A notification is due. -/
  raised : Bool := false
  deriving DecidableEq, Inhabited

namespace Reply

def record (r : Reply) : Record := ⟨r.resId, r.code.toWord, r.detail⟩

def toJson (r : Reply) : Json := r.record.toJson

/-- Makes a notification due. -/
def raise (r : Reply) : Reply := { r with raised := true }

/-- The notification has been given. -/
def lower (r : Reply) : Reply := { r with raised := false }

def setId (id : String) (r : Reply) : Reply := { r with resId := id, raised := true }

def setCode (code : Code) (r : Reply) : Reply := { r with code, raised := true }

def setDetail (detail : String) (r : Reply) : Reply := { r with detail, raised := true }

/-- Writes an error as the verdict on the request. -/
def recordError (e : ConfigError) (r : Reply) : Reply :=
  (r.setDetail e.message).setCode e.code

/-- Forgets the last request without giving notice. -/
def reset (r : Reply) : Reply := { raised := r.raised }

end Reply

/-- A record that stands alone. -/
structure Envelope where
  record : Record
  deriving DecidableEq, Inhabited

namespace Envelope

/-- The text of an envelope, with its fields in their own order. -/
def text (e : Envelope) : String :=
  Json.text <| .object [("res_info", .object
    [("res_id", .string e.record.resId), ("code", .word e.record.code),
      ("detail_msg", .string e.record.detail)])]

/-! ### Reading

Of each known field there has to be exactly one, and unknown fields do not matter.
-/

/-- A numeral that spells an unsigned 32-bit word. -/
def word? : Written → Option UInt32
  | .numeral n =>
    match n.value? with
    | some (.integer v _) => if 0 ≤ v ∧ v < 0x100000000 then some (UInt32.ofNat v.toNat) else none
    | _ => none
  | _ => none

/-- A string with content. -/
def string? : Written → Option String
  | .string content => content
  | _ => none

/-- The one value under a key. -/
def single? (members : List (Option String × Written)) (key : String) : Option Written :=
  match members.filter (·.1 == some key) with
  | [(_, x)] => some x
  | _ => none

/-- A record, given as an object or as the list of its fields. -/
def record? : Written → Option Record
  | .object members => do
    if members.any (·.1.isNone) then none
    let id ← single? members "res_id"
    let code ← single? members "code"
    let detail ← single? members "detail_msg"
    some ⟨← string? id, ← word? code, ← string? detail⟩
  | .array [id, code, detail] => do some ⟨← string? id, ← word? code, ← string? detail⟩
  | _ => none

/-- An envelope, given as an object or as the list of its one field. -/
def ofWritten? : Written → Option Envelope
  | .object members => do
    if members.any (·.1.isNone) then none
    (← single? members "res_info") |> record? |>.map Envelope.mk
  | .array [record] => (record? record).map Envelope.mk
  | _ => none

/-- The envelope that a text spells. -/
def ofText? (text : String) : Option Envelope := (Written.ofText? text).bind ofWritten?

end Envelope

end DeviceConfig
