/-
Numbers as they are written, and the values they have.

The digits are gathered into a significand for as long as it fits 64 bits.  Digits of the
whole part that no longer fit only raise the exponent, and digits of the fraction that no
longer fit do not count.  The significand is rounded to a double and then scaled by a power
of ten, so a numeral of many digits may miss the nearest double by its last bits.
-/
import DeviceConfig.Json.Value

namespace DeviceConfig

/-- The power of ten that follows the significand of a numeral. -/
structure Exponent where
  negative : Bool
  digits : List Char

/-- The parts of a written number. -/
structure Numeral where
  negative : Bool
  whole : List Char
  /-- The digits after the point, if there is a point. -/
  fraction : Option (List Char)
  exponent : Option Exponent

/-- The value of a decimal digit. -/
def digitValue (c : Char) : Nat := c.toNat - '0'.toNat

/-- The number that some decimal digits denote. -/
def digitsValue (digits : List Char) : Nat :=
  digits.foldl (fun n c => 10 * n + digitValue c) 0

namespace Exponent

def value (e : Exponent) : Int :=
  if e.negative then -(digitsValue e.digits : Int) else digitsValue e.digits

end Exponent

namespace Numeral

/-! ### Reading the parts -/

/-- The digits at the start of a text, and the rest. -/
def digits (text : List Char) : List Char × List Char := text.span Char.isDigit

/-- At least one digit. -/
def digits? (text : List Char) : Option (List Char × List Char) :=
  let (ds, rest) := digits text
  if ds.isEmpty then none else some (ds, rest)

/-- The whole part: `0`, or digits of which the first is not a zero. -/
def whole? (text : List Char) : Option (List Char × List Char) :=
  match digits? text with
  | some ('0' :: _ :: _, _) => none
  | found => found

/-- A point with digits after it, if the text starts with a point. -/
def fraction? : List Char → Option (Option (List Char) × List Char)
  | '.' :: text => (digits? text).map fun (ds, rest) => (some ds, rest)
  | text => some (none, text)

/-- The sign of an exponent and the text after it. -/
def exponentSign : List Char → Bool × List Char
  | '-' :: text => (true, text)
  | '+' :: text => (false, text)
  | text => (false, text)

/-- An exponent, if the text starts with one. -/
def exponent? (text : List Char) : Option (Option Exponent × List Char) :=
  match text with
  | 'e' :: text | 'E' :: text =>
    let (negative, text) := exponentSign text
    (digits? text).map fun (ds, rest) => (some ⟨negative, ds⟩, rest)
  | _ => some (none, text)

/-- The sign of a numeral and the text after it. -/
def sign : List Char → Bool × List Char
  | '-' :: text => (true, text)
  | text => (false, text)

/-- The numeral at the start of a text, and the rest. -/
def read? (text : List Char) : Option (Numeral × List Char) := do
  let (negative, text) := sign text
  let (whole, text) ← whole? text
  let (fraction, text) ← fraction? text
  let (exponent, text) ← exponent? text
  some (⟨negative, whole, fraction, exponent⟩, text)

/-! ### The value -/

/-- Digits added to a significand while it stays below `2 ^ 64`, and those left over. -/
def absorb (significand : Nat) : List Char → Nat × List Char
  | [] => (significand, [])
  | c :: rest =>
    let next := 10 * significand + digitValue c
    if next < UInt64.size then absorb next rest else (significand, c :: rest)

/-- A double divided by ten `places` times, in steps of 308 places.  `fuel` bounds the steps;
one more than `places / 308` of them is enough. -/
def scaleDown (x : Double) (places : Nat) : (fuel : Nat) → Option Double
  | 0 => none
  | fuel + 1 =>
    if places ≤ 308 then x.div? (.powerOfTen places)
    else if x.units = 0 then some x
    else (x.div? (.powerOfTen 308)).bind fun y => scaleDown y (places - 308) fuel

/-- A double times a power of ten, unless the result is too large. -/
def scale (x : Double) (exponent : Int) : Option Double :=
  if exponent < 0 then scaleDown x exponent.natAbs (exponent.natAbs / 308 + 1)
  else if exponent ≤ 308 then x.mul? (.powerOfTen exponent.natAbs)
  else if x.units = 0 then some x
  else none

/-- A significand times a power of ten as a double with the given sign. -/
def double? (negative : Bool) (significand : Nat) (exponent : Int) : Option Number :=
  (scale (Double.ofInt significand) exponent).map fun x =>
    .double (if negative then x.neg else x)

/-- A whole significand that fits: an integer, unless the sign makes it a negative zero or
takes it below the least 64-bit integer. -/
def integer (negative : Bool) (significand : Nat) : Number :=
  if negative then
    if significand = 0 then .double (Double.ofInt 0).neg
    else (Number.ofInt? (-significand)).getD (.double (Double.ofInt (-significand)))
  else (Number.ofInt? significand).getD (.double (Double.ofInt significand))

/-- The number that a numeral denotes; there is none when it exceeds every double. -/
def value? (n : Numeral) : Option Number :=
  let (significand, surplus) := absorb 0 n.whole
  match n.fraction, n.exponent with
  | none, none =>
    if surplus.isEmpty then some (integer n.negative significand)
    else double? n.negative significand surplus.length
  | fraction, exponent =>
    let decimals := fraction.getD []
    let (significand, ignored) := absorb significand decimals
    let places : Int := surplus.length - (decimals.length - ignored.length : Nat)
    double? n.negative significand (places + (exponent.map Exponent.value).getD 0)

end Numeral

end DeviceConfig
