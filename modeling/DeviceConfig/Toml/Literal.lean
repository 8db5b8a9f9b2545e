/-
Numbers, dates and times in TOML.

Digits may be set apart by underscores.  An integer has to fit 64 bits with its sign, and a
floating-point number must not be too large for a double.
-/
import DeviceConfig.Binary.Double
import DeviceConfig.Text.Digits

namespace DeviceConfig.Toml.Literal

/-! ### Digits -/

/-- Digits that follow others, each set apart by at most one underscore. -/
def more (ok : Char → Bool) : List Char → List Char × List Char
  | '_' :: c :: rest =>
    if ok c then
      let (ds, rest) := more ok rest
      (c :: ds, rest)
    else ([], '_' :: c :: rest)
  | c :: rest =>
    if ok c then
      let (ds, rest) := more ok rest
      (c :: ds, rest)
    else ([], c :: rest)
  | [] => ([], [])

/-- At least one digit. -/
def digits? (ok : Char → Bool) : List Char → Option (List Char × List Char)
  | c :: rest =>
    if ok c then
      let (ds, rest) := more ok rest
      some (c :: ds, rest)
    else none
  | [] => none

/-- The digits of a whole number without leading zeros. -/
def whole? : List Char → Option (List Char × List Char)
  | '0' :: rest => some (['0'], rest)
  | text => digits? Char.isDigit text

/-- A sign, if there is one, and whether it is a minus. -/
def sign : List Char → Bool × List Char
  | '-' :: rest => (true, rest)
  | '+' :: rest => (false, rest)
  | text => (false, text)

/-! ### Integers -/

/-- The integer, if it fits 64 bits with its sign. -/
def fitting? (n : Int) : Option Int :=
  if -0x8000000000000000 ≤ n ∧ n < 0x8000000000000000 then some n else none

/-- Digits in a base other than ten. -/
def based? (base : Nat) (text : List Char) : Option (Int × List Char) := do
  let (ds, rest) ← digits? (fun c => (Text.digit? base c).isSome) text
  let n ← Text.digitsValue? base ds
  some (← fitting? n, rest)

/-- A decimal integer. -/
def decimal? (text : List Char) : Option (Int × List Char) := do
  let (negative, text) := sign text
  let (ds, rest) ← whole? text
  let n ← Text.digitsValue? 10 ds
  some (← fitting? (if negative then -(n : Int) else n), rest)

def integer? : List Char → Option (Int × List Char)
  | '0' :: 'x' :: text => based? 16 text
  | '0' :: 'o' :: text => based? 8 text
  | '0' :: 'b' :: text => based? 2 text
  | text => decimal? text

/-! ### Floating-point numbers -/

/-- A point and digits, if there is a point. -/
def fraction? : List Char → Option (List Char × List Char)
  | '.' :: text => digits? Char.isDigit text
  | _ => none

/-- An exponent, if there is one. -/
def exponent? : List Char → Option (Int × List Char)
  | 'e' :: text | 'E' :: text => do
    let (negative, text) := sign text
    let (ds, rest) ← digits? Char.isDigit text
    let n ← Text.digitsValue? 10 ds
    some (if negative then -(n : Int) else n, rest)
  | _ => none

/-- Digits times a power of ten are too large for a double. -/
def exceeds (digits : List Char) (exponent : Int) : Bool :=
  let significant := digits.dropWhile (· == '0')
  let places := significant.length + exponent
  if significant.isEmpty || places < 300 then false
  else if 320 < places then true
  else
    let n := (Text.digitsValue? 10 digits).getD 0
    (Double.ofRatio? false (n * Nat.pow 10 exponent.toNat)
      (Nat.pow 10 (-exponent).toNat)).isNone

/-- A fraction, an exponent or both. -/
def tail? (text : List Char) : Option (List Char × Int × List Char) :=
  match fraction? text with
  | some (ds, rest) =>
    match exponent? rest with
    | some (e, rest) => some (ds, e, rest)
    | none => some (ds, 0, rest)
  | none => (exponent? text).map fun (e, rest) => ([], e, rest)

/-- The text after `inf` or `nan`. -/
def special? : List Char → Option (List Char)
  | 'i' :: 'n' :: 'f' :: rest => some rest
  | 'n' :: 'a' :: 'n' :: rest => some rest
  | _ => none

/-- The text after a floating-point number. -/
def float? (text : List Char) : Option (List Char) :=
  let (negative, text) := sign text
  match special? text with
  | some rest => some rest
  | none => do
    let (ds, text) ← whole? text
    let (fraction, exponent, rest) ← tail? text
    if !negative && exceeds (ds ++ fraction) (exponent - fraction.length) then none else some rest

/-! ### Dates and times -/

/-- The number of two digits, if it is within limits. -/
def two? (low high : Nat) : List Char → Option (Nat × List Char)
  | a :: b :: rest =>
    if a.isDigit && b.isDigit then do
      let n ← Text.digitsValue? 10 [a, b]
      if low ≤ n ∧ n ≤ high then some (n, rest) else none
    else none
  | _ => none

/-- The text after a character, if it starts with that. -/
def char? (c : Char) : List Char → Option (List Char)
  | d :: rest => if c = d then some rest else none
  | [] => none

/-- How many days a month has. -/
def daysIn (year month : Nat) : Nat :=
  if month = 2 then
    if year % 4 = 0 ∧ (year % 100 ≠ 0 ∨ year % 400 = 0) then 29 else 28
  else if month = 4 ∨ month = 6 ∨ month = 9 ∨ month = 11 then 30
  else 31

/-- The text after a date. -/
def date? (text : List Char) : Option (List Char) := do
  let (century, text) ← two? 0 99 text
  let (rest, text) ← two? 0 99 text
  let (month, text) ← two? 1 12 (← char? '-' text)
  let (_, text) ← two? 1 (daysIn (100 * century + rest) month) (← char? '-' text)
  some text

/-- The text after fractions of a second, if there are any. -/
def secondFraction : List Char → List Char
  | '.' :: c :: rest => if c.isDigit then rest.dropWhile Char.isDigit else '.' :: c :: rest
  | text => text

/-- The text after a time of day. -/
def clock? (text : List Char) : Option (List Char) := do
  let (_, text) ← two? 0 23 text
  let (_, text) ← two? 0 59 (← char? ':' text)
  let (_, text) ← two? 0 60 (← char? ':' text)
  some (secondFraction text)

/-- The text after an offset from universal time, if there is one. -/
def offset? : List Char → Option (List Char)
  | 'Z' :: rest | 'z' :: rest => some rest
  | '+' :: text | '-' :: text => do
    let (_, text) ← two? 0 23 text
    let (_, text) ← two? 0 59 (← char? ':' text)
    some text
  | text => some text

/-- The text after what separates a time from its date. -/
def separator? : List Char → Option (List Char)
  | 'T' :: rest | 't' :: rest | ' ' :: rest => some rest
  | _ => none

/-- The text after a date, a time or both. -/
def time? (text : List Char) : Option (List Char) :=
  match date? text with
  | some rest =>
    match (separator? rest).bind clock? with
    | some rest => offset? rest
    | none => some rest
  | none => clock? text

end DeviceConfig.Toml.Literal
