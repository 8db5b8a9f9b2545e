/-
Unsigned numbers in some base.

A text denotes a number if it has at least one digit and nothing but digits, apart from a
plus sign that may stand in front.
-/
namespace DeviceConfig.Text

/-- The value of a decimal or hexadecimal digit. -/
def hexDigit? (c : Char) : Option Nat :=
  if '0' ≤ c ∧ c ≤ '9' then some (c.toNat - '0'.toNat)
  else if 'a' ≤ c ∧ c ≤ 'f' then some (c.toNat - 'a'.toNat + 10)
  else if 'A' ≤ c ∧ c ≤ 'F' then some (c.toNat - 'A'.toNat + 10)
  else none

/-- The value of a digit in a base of at most sixteen. -/
def digit? (base : Nat) (c : Char) : Option Nat := (hexDigit? c).filter (· < base)

/-- The number that some digits denote. -/
def digitsValue? (base : Nat) (digits : List Char) : Option Nat :=
  digits.foldlM (fun n c => (digit? base c).map (base * n + ·)) 0

/-- The digits after an optional plus sign. -/
def unsigned : List Char → List Char
  | '+' :: digits => digits
  | digits => digits

/-- The number that a text denotes. -/
def number? (base : Nat) (text : List Char) : Option Nat :=
  if (unsigned text).isEmpty then none else digitsValue? base (unsigned text)

/-- The number that a text denotes, if it fits 64 bits. -/
def long? (base : Nat) (text : List Char) : Option UInt64 :=
  (number? base text).bind fun n => if n < UInt64.size then some (UInt64.ofNat n) else none

/-- Upper-case hexadecimal digits, at least `places` of them. -/
def hex (places : Nat) (n : Nat) : String :=
  let digits := (Nat.toDigits 16 n).map Char.toUpper
  String.ofList (List.replicate (places - digits.length) '0' ++ digits)

end DeviceConfig.Text
