/-
Raw register writes.
-/
namespace DeviceConfig

/-- How wide a register is. -/
inductive Width where
  | bits8 | bits16 | bits32 | bits64
  deriving DecidableEq, Repr, Inhabited

namespace Width

/-- Every width, by index. -/
def all : List Width := [bits8, bits16, bits32, bits64]

/-- The number of a width in a document. -/
def index : Width → UInt32
  | bits8 => 0
  | bits16 => 1
  | bits32 => 2
  | bits64 => 3

/-- The width with a number, if there is one. -/
def ofIndex? (index : UInt32) : Option Width := all.find? (·.index == index)

/-- The width in bits. -/
def bits : Width → Nat
  | bits8 => 8
  | bits16 => 16
  | bits32 => 32
  | bits64 => 64

/-- How many values a register of the width can hold. -/
def size (w : Width) : Nat := Nat.pow 2 w.bits

/-- The name of a width. -/
def name (w : Width) : String := s!"Bits{w.bits}"

/-- The width with a given name. -/
def ofName? (name : String) : Option Width := all.find? (·.name == name)

/-- Data cut down to the width. -/
def truncate (w : Width) (data : UInt64) : UInt64 := UInt64.ofNat (data.toNat % w.size)

theorem ofIndex?_index (w : Width) : ofIndex? w.index = some w := by
  cases w <;> rfl

theorem toNat_truncate (w : Width) (data : UInt64) :
    (w.truncate data).toNat = data.toNat % w.size := by
  have := Nat.lt_of_le_of_lt (Nat.mod_le data.toNat w.size) data.toNat_lt
  simpa [truncate] using Nat.mod_eq_of_lt this

theorem toNat_truncate_lt (w : Width) (data : UInt64) : (w.truncate data).toNat < w.size := by
  rw [toNat_truncate]
  exact Nat.mod_lt _ (Nat.two_pow_pos w.bits)

end Width

/-- One write to a register. -/
structure RegisterWrite where
  width : Width
  id : UInt32
  address : UInt64
  data : UInt64
  deriving DecidableEq, Inhabited

/-- The data is no wider than the register. -/
def RegisterWrite.Fits (r : RegisterWrite) : Prop := r.data.toNat < r.width.size

/-- A write whose data has been cut down to its register. -/
abbrev RegisterWrite.Fitting := { r : RegisterWrite // r.Fits }

end DeviceConfig
