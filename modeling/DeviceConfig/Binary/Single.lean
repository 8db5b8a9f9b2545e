/-
Single-precision numbers, as sensor properties carry them.

A document only ever writes finite doubles, but a large one rounds to an infinity here,
and a sensor may report anything at all, so the special values exist in this type.
-/
import DeviceConfig.Binary.Double

namespace DeviceConfig

/-- A single-precision number. -/
inductive Single where
  | finite (x : Finite .binary32)
  | infinite (negative : Bool)
  | nan

namespace Single

instance : Inhabited Single := ⟨.finite Finite.zero⟩

/-- The single with this sign and magnitude; infinite when the format does not hold that. -/
def ofUnits (negative : Bool) (units : Nat) : Single :=
  match Finite.of? negative units with
  | some x => .finite x
  | none => .infinite negative

/-- The single nearest to `num / den` with the given sign; infinite when that is too large. -/
def ofRatio (negative : Bool) (num den : Nat) : Single :=
  ofUnits negative (Format.binary32.round (num * Nat.pow 2 Format.binary32.scale) den)

/-- The nearest single to a double; infinite beyond the largest single. -/
def ofDouble (x : Double) : Single := ofRatio x.negative x.units Double.unit

/-- The double of the same value.  Only finite numbers have one. -/
def toDouble? : Single → Option Double
  | .finite x =>
    Finite.of? x.negative (x.units * Nat.pow 2 (Format.binary64.scale - Format.binary32.scale))
  | _ => none

/-- Equal in value.  The two zeros are equal, and a `nan` equals nothing. -/
def same : Single → Single → Bool
  | .finite x, .finite y => x.same y
  | .infinite a, .infinite b => a == b
  | _, _ => false

instance : BEq Single := ⟨same⟩

/-- The single of a whole number. -/
def ofInt (n : Int) : Single := ofRatio (decide (n < 0)) n.natAbs 1

instance (n : Nat) : OfNat Single n := ⟨ofInt n⟩

end Single

end DeviceConfig
