/-
Writing numbers in decimal.

A `Style` says when a number is written with an exponent and whether a whole number still
shows a fraction.  `fixed` writes a given number of places instead, from the exact value.
-/
import DeviceConfig.Decimal.Shortest

namespace DeviceConfig.Decimal

/-- How a number is spelled. -/
structure Style where
  /-- The places of the leading digit that are written without an exponent: from the first
  up to and excluding the second.  Every place, if there is no range. -/
  plain : Option (Int × Int)
  /-- A whole number written without an exponent ends in `.0`. -/
  fraction : Bool

/-- Some zeros. -/
def zeros (n : Nat) : List Char := List.replicate n '0'

/-- The digits of a coefficient without the zeros at its end. -/
def significant (coefficient : Nat) : List Char :=
  ((Nat.toDigits 10 coefficient).reverse.dropWhile (· == '0')).reverse

/-- Digits with the point after the first `places` of them; `places` may lie outside. -/
def positional (style : Style) (digits : List Char) (places : Int) : List Char :=
  if places ≤ 0 then '0' :: '.' :: zeros (-places).toNat ++ digits
  else if digits.length ≤ places.toNat then
    digits ++ zeros (places.toNat - digits.length) ++ (if style.fraction then ['.', '0'] else [])
  else digits.take places.toNat ++ '.' :: digits.drop places.toNat

/-- Digits with the point after the first one, and the place of that digit as exponent. -/
def scientific (digits : List Char) (place : Int) : List Char :=
  let mantissa := match digits with
    | d :: e :: rest => d :: '.' :: e :: rest
    | short => short
  mantissa ++ 'e' :: (if place < 0 then '-' else '+') :: Nat.toDigits 10 place.natAbs

/-- A magnitude in its shortest digits. -/
def Style.magnitude (style : Style) (units : Nat) : List Char :=
  if units = 0 then positional style ['0'] 1
  else
    let short := shortest units
    let digits := significant short.coefficient
    let place := (Nat.toDigits 10 short.coefficient).length - 1 + short.exponent
    let plain := match style.plain with
      | some (first, last) => first ≤ place && place < last
      | none => true
    if plain then positional style digits (place + 1) else scientific digits place

/-- A double in its shortest digits. -/
def Style.write (style : Style) (x : Double) : List Char :=
  (if x.negative then ['-'] else []) ++ style.magnitude x.units

/-- A double with exactly `places` digits after the point, a half going to the even digit. -/
def fixed (places : Nat) (x : Double) : String :=
  let digits := Nat.toDigits 10 (divEven (x.units * Nat.pow 10 places) Double.unit)
  let padded := zeros (places + 1 - digits.length) ++ digits
  let whole := padded.length - places
  String.ofList <|
    (if x.negative then ['-'] else []) ++ padded.take whole ++ '.' :: padded.drop whole

end DeviceConfig.Decimal
