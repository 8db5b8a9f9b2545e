/-
The shortest decimal that reads back as a given number.

Around every magnitude lies the range of reals that round to it, here its `Basin`.  The
decimals with `n` digits form a grid, and if any point of that grid lies in the basin then
one of the two grid points next to the number does, so it is enough to try those two for
one digit, two digits, and so on.  Seventeen digits always suffice for a double.
-/
import DeviceConfig.Binary.Double

namespace DeviceConfig

/-- The number `coefficient * 10 ^ exponent`. -/
structure Decimal where
  coefficient : Nat
  exponent : Int
  deriving DecidableEq, Repr

/-- The reals that round to one magnitude, from `low` to `high` in quarters of a unit.  The
ends belong to it when `closed`. -/
structure Basin where
  low : Nat
  high : Nat
  closed : Bool

/-- The reals that a format rounds to a magnitude: half a gap to either side, except that
the gap below a power of two is half as wide. -/
def Format.basin (f : Format) (units : Nat) : Basin :=
  let gap := Nat.pow 2 (f.shift units)
  let below := if 0 < f.shift units ∧ units = Nat.pow 2 units.log2 then gap else 2 * gap
  { low := 4 * units - below, high := 4 * units + 2 * gap, closed := units / gap % 2 == 0 }

/-- `num / den` quarters of a unit lie in the basin. -/
def Basin.contains (b : Basin) (num den : Nat) : Bool :=
  if b.closed then b.low * den ≤ num && num ≤ b.high * den
  else b.low * den < num && num < b.high * den

namespace Decimal

/-- The place of the leading digit: the exponent of the greatest power of ten that is at
most `num / den`. -/
def leading (num den : Nat) : Int :=
  if den ≤ num then (Nat.toDigits 10 (num / den)).length - 1
  else
    match (List.range 400).find? fun n => den ≤ num * Nat.pow 10 n with
    | some n => -(n : Int)
    | none => 0

/-- The decimals `coefficient * 10 ^ exponent` next to `units`, the nearer one first. -/
def neighbours (units : Nat) (exponent : Int) : List Nat :=
  let num := units * Nat.pow 10 (-exponent).toNat
  let den := Double.unit * Nat.pow 10 exponent.toNat
  let near := divEven num den
  if near = num / den then [near, near + 1] else [near, near - 1]

/-- The decimal with this last place that is nearest to `units` and rounds to it. -/
def atPlace? (units : Nat) (exponent : Int) : Option Decimal :=
  let basin := Format.binary64.basin units
  (neighbours units exponent).find? (fun c =>
      basin.contains (4 * Double.unit * c * Nat.pow 10 exponent.toNat)
        (Nat.pow 10 (-exponent).toNat))
    |>.map fun c => ⟨c, exponent⟩

/-- The most significant decimal places that a double needs. -/
def mostDigits : Nat := 17

/-- The decimal with the fewest digits that rounds to a positive magnitude; of those the
nearest. -/
def shortest (units : Nat) : Decimal :=
  let first := leading units Double.unit
  ((List.range mostDigits).findSome? fun n : Nat => atPlace? units (first - n)).getD ⟨0, 0⟩

end Decimal

end DeviceConfig
