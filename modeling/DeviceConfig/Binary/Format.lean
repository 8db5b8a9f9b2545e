/-
Binary floating-point formats, without floating-point arithmetic.

Every finite number of a format is a whole number of its smallest unit, so a number is
held as a sign and a count of units.  Order, equality and truncation are then questions
about integers, and the only operation that can lose anything is `Format.round`, which
brings an arbitrary ratio to the nearest count that the format can hold.
-/
namespace DeviceConfig

/-- A binary format: a finite magnitude is a count of units of `2 ^ -scale`, lies below
`2 ^ width` units, and has at most `precision` significant binary digits. -/
structure Format where
  precision : Nat
  scale : Nat
  width : Nat

namespace Format

/-- Double precision. -/
def binary64 : Format := ⟨53, 1074, 2098⟩

/-- Single precision. -/
def binary32 : Format := ⟨24, 149, 277⟩

/-- How many low binary digits a magnitude of this size has to leave at zero. -/
def shift (f : Format) (units : Nat) : Nat := units.log2 + 1 - f.precision

/-- The format can hold this count of units exactly. -/
def Holds (f : Format) (units : Nat) : Prop :=
  units < Nat.pow 2 f.width ∧ units % Nat.pow 2 (f.shift units) = 0

instance (f : Format) (units : Nat) : Decidable (f.Holds units) :=
  inferInstanceAs (Decidable (_ ∧ _))

end Format

/-- The whole number nearest to `num / den`; of two equally near, the even one. -/
def divEven (num den : Nat) : Nat :=
  let low := num / den
  let rest := num % den
  if 2 * rest < den then low
  else if den < 2 * rest then low + 1
  else low + low % 2

/-- The count nearest to `num / den` units that has few enough significant digits; of two
equally near, the one whose last digit is even.  The bound on its size is left to the caller. -/
def Format.round (f : Format) (num den : Nat) : Nat :=
  let step := Nat.pow 2 (f.shift (num / den))
  divEven num (den * step) * step

/-- A finite number of a format.  Zero comes with either sign. -/
structure Finite (f : Format) where
  negative : Bool
  units : Nat
  holds : f.Holds units
  deriving DecidableEq

namespace Finite

variable {f : Format}

/-- The number with this sign and magnitude, if the format holds the magnitude. -/
def of? (negative : Bool) (units : Nat) : Option (Finite f) :=
  if h : f.Holds units then some ⟨negative, units, h⟩ else none

/-- Positive zero. -/
def zero : Finite f := ⟨false, 0, by
  refine ⟨Nat.two_pow_pos _, Nat.zero_mod _⟩⟩

instance : Inhabited (Finite f) := ⟨zero⟩

/-- The number as a signed count of units.  Both zeros count zero units. -/
def toInt (x : Finite f) : Int :=
  if x.negative then -x.units else x.units

/-- The same number with the opposite sign. -/
def neg (x : Finite f) : Finite f := { x with negative := !x.negative }

/-- Equal in value: the two zeros are the same number. -/
def same (x y : Finite f) : Bool := x.toInt == y.toInt

end Finite

end DeviceConfig
