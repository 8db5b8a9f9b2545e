/-
Writing JSON.

`Json.tokens` lists the pieces of the compact form in order, and the text is their
concatenation.  `Json.pretty` is the form for people: one member or item a line, two spaces
for each level.
-/
import DeviceConfig.Decimal.Text
import DeviceConfig.Json.Object

namespace DeviceConfig

/-- A piece of JSON text. -/
abbrev Token := List Char

/-- Doubles go without an exponent from `0.00001` up to sixteen digits before the point, and
always show that they are doubles. -/
def Number.style : Decimal.Style := ⟨some (-5, 16), true⟩

/-- A number as JSON spells it. -/
def Number.token : Number → Token
  | .integer n _ => (if n < 0 then ['-'] else []) ++ Nat.toDigits 10 n.natAbs
  | .double x => style.write x

namespace Json

/-- A code unit below 16 as a hexadecimal digit. -/
def hexDigit (n : Nat) : Char := Nat.digitChar n

/-- A character inside a string. -/
def escape (c : Char) : List Char :=
  if c = '"' then ['\\', '"']
  else if c = '\\' then ['\\', '\\']
  else if c = '\x08' then ['\\', 'b']
  else if c = '\x0c' then ['\\', 'f']
  else if c = '\n' then ['\\', 'n']
  else if c = '\r' then ['\\', 'r']
  else if c = '\t' then ['\\', 't']
  else if c.toNat < 0x20 then
    ['\\', 'u', '0', '0', hexDigit (c.toNat / 16), hexDigit (c.toNat % 16)]
  else [c]

/-- A string in quotes. -/
def quoted (s : String) : Token := '"' :: (s.toList.flatMap escape ++ ['"'])

/-- A comma, except before the first of several. -/
def comma (first : Bool) : List Token := if first then [] else [[',']]

mutual

/-- The compact form, piece by piece. -/
def tokens : Json → List Token
  | .null => ["null".toList]
  | .bool b => [(if b then "true" else "false").toList]
  | .number n => [n.token]
  | .string s => [quoted s]
  | .array items => ['['] :: (itemTokens true items ++ [[']']])
  | .object members => ['\x7b'] :: (memberTokens true members ++ [['\x7d']])

/-- Items with commas between them. -/
def itemTokens (first : Bool) : List Json → List Token
  | [] => []
  | x :: xs => comma first ++ tokens x ++ itemTokens false xs

/-- Members with commas between them. -/
def memberTokens (first : Bool) : List (String × Json) → List Token
  | [] => []
  | (k, x) :: xs => comma first ++ quoted k :: [':'] :: tokens x ++ memberTokens false xs

end

/-- The compact form. -/
def text (v : Json) : String := String.ofList v.tokens.flatten

/-! ### The form for people -/

/-- A new line at some level. -/
def newLine (level : Nat) : List Char := '\n' :: List.replicate (2 * level) ' '

/-- What stands before an item or a member. -/
def lead (first : Bool) (level : Nat) : List Char :=
  (if first then [] else [',']) ++ newLine level

mutual

/-- A value whose surroundings are indented by `level` levels. -/
def prettyAt (level : Nat) : Json → List Char
  | .array [] => ['[', ']']
  | .array items => '[' :: (prettyItems (level + 1) true items ++ newLine level ++ [']'])
  | .object [] => ['\x7b', '\x7d']
  | .object members =>
    '\x7b' :: (prettyMembers (level + 1) true members ++ newLine level ++ ['\x7d'])
  | .null => (tokens .null).flatten
  | .bool b => (tokens (.bool b)).flatten
  | .number n => (tokens (.number n)).flatten
  | .string s => (tokens (.string s)).flatten

def prettyItems (level : Nat) (first : Bool) : List Json → List Char
  | [] => []
  | x :: xs => lead first level ++ prettyAt level x ++ prettyItems level false xs

def prettyMembers (level : Nat) (first : Bool) : List (String × Json) → List Char
  | [] => []
  | (k, x) :: xs =>
    lead first level ++ quoted k ++ ':' :: ' ' :: prettyAt level x ++ prettyMembers level false xs

end

/-- The form for people. -/
def pretty (v : Json) : String := String.ofList (prettyAt 0 v)

end Json

end DeviceConfig
