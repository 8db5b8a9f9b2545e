/-
Paths into a JSON value.

A path is written as steps, each after a slash.  In a step `~1` stands for a slash and `~0`
for a tilde.  A step into an object is a key; a step into an array is an index without sign
or leading zeros, and of at most 64 bits.
-/
import DeviceConfig.Json.Numeral
import DeviceConfig.Json.Object

namespace DeviceConfig.Json.Pointer

/-- A text cut at every slash. -/
def cut : List Char → List (List Char)
  | [] => [[]]
  | c :: rest =>
    if c = '/' then [] :: cut rest
    else match cut rest with
      | step :: steps => (c :: step) :: steps
      | [] => [[c]]

/-- A step with its escapes resolved. -/
def unescape : List Char → List Char
  | '~' :: '1' :: rest => '/' :: unescape rest
  | '~' :: '0' :: rest => '~' :: unescape rest
  | c :: rest => c :: unescape rest
  | [] => []

/-- The index that a step spells. -/
def index? (step : List Char) : Option Nat :=
  match step with
  | [] => none
  | '0' :: _ :: _ => none
  | ds =>
    if ds.all Char.isDigit ∧ digitsValue ds < UInt64.size then some (digitsValue ds) else none

/-- The value that one step leads to. -/
def enter? (step : List Char) : Json → Option Json
  | .object members => Object.field? members (String.ofList step)
  | .array items => (index? step).bind fun i => items[i]?
  | _ => none

/-- The value that some steps lead to. -/
def follow? (steps : List (List Char)) (v : Json) : Option Json :=
  steps.foldlM (fun v step => enter? step v) v

end Pointer

/-- The value at a path.  The empty path is the value itself, and any other starts with a
slash. -/
def at? (v : Json) (path : String) : Option Json :=
  match path.toList with
  | [] => some v
  | '/' :: rest => Pointer.follow? ((Pointer.cut rest).map Pointer.unescape) v
  | _ => none

end DeviceConfig.Json
