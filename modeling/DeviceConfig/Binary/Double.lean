/-
Double-precision numbers: the numbers that rules compare and that documents spell with a
point or an exponent.

There is no infinity here.  An operation whose result would lie beyond the largest number
has no result, and what that means is for its caller to say.
-/
import DeviceConfig.Binary.Format

namespace DeviceConfig

/-- A finite double-precision number. -/
abbrev Double := Finite .binary64

namespace Double

/-- How many units make one. -/
def unit : Nat := Nat.pow 2 Format.binary64.scale

/-- The double nearest to `num / den` with the given sign, unless it would be too large. -/
def ofRatio? (negative : Bool) (num den : Nat) : Option Double :=
  Finite.of? negative (Format.binary64.round (num * unit) den)

/-- The double nearest to a whole number; zero for one beyond the largest double. -/
def ofInt (n : Int) : Double :=
  (ofRatio? (decide (n < 0)) n.natAbs 1).getD Finite.zero

instance (n : Nat) : OfNat Double n := ⟨ofInt n⟩

/-- The rounded product of two doubles. -/
def mul? (x y : Double) : Option Double :=
  Finite.of? (x.negative ^^ y.negative) (Format.binary64.round (x.units * y.units) unit)

/-- The rounded quotient of two doubles; there is none by zero. -/
def div? (x y : Double) : Option Double :=
  if y.units = 0 then none
  else Finite.of? (x.negative ^^ y.negative) (Format.binary64.round (x.units * unit) y.units)

/-- The double nearest to a power of ten, for exponents up to 308. -/
def powerOfTen (n : Nat) : Double := ofInt (Nat.pow 10 n : Nat)

/-- The number has no fractional part. -/
def isWhole (x : Double) : Bool := x.units % unit == 0

/-- The integer part as an unsigned 32-bit word: negative numbers give zero and numbers
beyond the largest word give that word. -/
def toWord (x : Double) : UInt32 :=
  if x.negative then 0 else UInt32.ofNat (min (x.units / unit) 4294967295)

end Double

end DeviceConfig
