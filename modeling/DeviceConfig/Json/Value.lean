/-
JSON values.

A number is either a whole number within 64 bits or a double, and the two stay apart: the
document says `1` for one and `1.0` for the other.  An object is a list of members; that
their keys ascend and do not repeat is what `Json.Sorted` says.
-/
import DeviceConfig.Binary.Single

namespace DeviceConfig

/-- A number as a document holds it. -/
inductive Number where
  | integer (value : Int)
      (bounded : -0x8000000000000000 ≤ value ∧ value < 0x10000000000000000)
  | double (value : Double)
  deriving DecidableEq

namespace Number

/-- The number of an unsigned 32-bit word. -/
def ofWord (w : UInt32) : Number :=
  .integer w.toNat (by have := w.toNat_lt; omega)

/-- The number of an unsigned 64-bit word. -/
def ofLong (w : UInt64) : Number :=
  .integer w.toNat (by have := w.toNat_lt; omega)

/-- A whole number, if it is within 64 bits. -/
def ofInt? (n : Int) : Option Number :=
  if h : -0x8000000000000000 ≤ n ∧ n < 0x10000000000000000 then some (.integer n h) else none

/-- The nearest double. -/
def toDouble : Number → Double
  | .integer n _ => Double.ofInt n
  | .double x => x

/-- The same number spelled in the same way.  Zeros of either sign are the same double. -/
def same : Number → Number → Bool
  | .integer m _, .integer n _ => m == n
  | .double x, .double y => x.same y
  | _, _ => false

end Number

/-- A JSON value. -/
inductive Json where
  | null
  | bool (value : Bool)
  | number (value : Number)
  | string (value : String)
  | array (items : List Json)
  | object (members : List (String × Json))

/-- What sort of value a JSON value is. -/
inductive Kind where
  | null | number | string | boolean | object | array
  deriving DecidableEq, Repr

/-- The name of a kind, as rules and messages give it. -/
def Kind.name : Kind → String
  | .null => "null"
  | .number => "number"
  | .string => "string"
  | .boolean => "boolean"
  | .object => "object"
  | .array => "array"

/-- Every kind. -/
def Kind.all : List Kind := [.null, .number, .string, .boolean, .object, .array]

/-- The kind with a given name. -/
def Kind.ofName? (name : String) : Option Kind := Kind.all.find? (·.name == name)

namespace Json

instance : Inhabited Json := ⟨.null⟩

/-- The kind of a value. -/
def kind : Json → Kind
  | .null => .null
  | .bool _ => .boolean
  | .number _ => .number
  | .string _ => .string
  | .array _ => .array
  | .object _ => .object

/-- The value of an unsigned 32-bit word. -/
def word (w : UInt32) : Json := .number (.ofWord w)

/-- The value of a single-precision number; there is only `null` for one that is not finite. -/
def single (x : Single) : Json :=
  match x.toDouble? with
  | some d => .number (.double d)
  | none => .null

/-! ### Reading a value as one of a kind -/

def number? : Json → Option Number
  | .number n => some n
  | _ => none

/-- The value of any number, as a double. -/
def double? (v : Json) : Option Double := v.number?.map Number.toDouble

/-- A number cut down to an unsigned 32-bit word. -/
def word? (v : Json) : Option UInt32 := v.double?.map Double.toWord

def string? : Json → Option String
  | .string s => some s
  | _ => none

def bool? : Json → Option Bool
  | .bool b => some b
  | _ => none

def array? : Json → Option (List Json)
  | .array items => some items
  | _ => none

/-! ### Equality

Two values are the same when they have the same shape and the same leaves, numbers being
compared by `Number.same`.
-/

mutual

/-- The same value. -/
def same : Json → Json → Bool
  | .null, .null => true
  | .bool a, .bool b => a == b
  | .number m, .number n => m.same n
  | .string s, .string t => s == t
  | .array xs, .array ys => sameItems xs ys
  | .object xs, .object ys => sameMembers xs ys
  | _, _ => false

/-- The same values in the same order. -/
def sameItems : List Json → List Json → Bool
  | [], [] => true
  | x :: xs, y :: ys => x.same y && sameItems xs ys
  | _, _ => false

/-- The same keys with the same values. -/
def sameMembers : List (String × Json) → List (String × Json) → Bool
  | [], [] => true
  | (j, x) :: xs, (k, y) :: ys => j == k && x.same y && sameMembers xs ys
  | _, _ => false

end

instance : BEq Json := ⟨same⟩

end Json

end DeviceConfig
