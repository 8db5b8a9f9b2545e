/-
Serialization within a bound.

The outbound text ends with a NUL byte.  Pieces are written one after the other while at
least one byte stays free for it, and the finished text is measured once more.
-/
import DeviceConfig.Json.Text
import DeviceConfig.Response.Error

namespace DeviceConfig

/-- How many bytes some characters take. -/
def bytes (cs : List Char) : Nat := cs.foldr (fun c n => c.utf8Size + n) 0

/-- A text with its terminator. -/
structure Serialized where
  terminated : List Char

namespace Serialized

/-- The text without its terminator. -/
def text (s : Serialized) : String := String.ofList s.terminated.dropLast

/-- The bytes of the text without its terminator. -/
def size (s : Serialized) : Nat := bytes s.terminated - 1

/-- The last character, which is the terminator. -/
def last? (s : Serialized) : Option Char := s.terminated.getLast?

/-- The pieces one after the other, if after each of them some of the `room` is left. -/
def fit? (room : Nat) : List Token → Option (List Char)
  | [] => some []
  | t :: ts => if room ≤ bytes t then none else (fit? (room - bytes t) ts).map (t ++ ·)

/-- The value within `bound` bytes, the terminator included. -/
def within (bound : Nat) (v : Json) : Except ConfigError Serialized :=
  match fit? bound v.tokens with
  | none => .error (.serialization "serialization bound exceeded")
  | some written =>
    let terminated := written ++ ['\x00']
    if bytes terminated > bound ∨ terminated.getLast? ≠ some '\x00' then
      .error (.serialization
        s!"terminated output of {bytes terminated} bytes exceeds bound {bound}")
    else .ok ⟨terminated⟩

/-! ### A bound that is always enough -/

/-- The most that a string may take, quotes included: six bytes for each of its own. -/
def stringEstimate (s : String) : Nat := 2 + 6 * bytes s.toList

mutual

/-- The most that a value may take. -/
def estimate : Json → Nat
  | .null => 4
  | .bool _ => 5
  | .number n => bytes n.token
  | .string s => stringEstimate s
  | .array items => 2 + estimateItems items
  | .object members => 2 + estimateMembers members

/-- The most that items with their commas may take. -/
def estimateItems : List Json → Nat
  | [] => 0
  | x :: xs => estimate x + 1 + estimateItems xs

/-- The most that members with their colons and commas may take. -/
def estimateMembers : List (String × Json) → Nat
  | [] => 0
  | (k, x) :: xs => stringEstimate k + 1 + estimate x + 1 + estimateMembers xs

end

/-- Bytes allowed beyond the estimate. -/
def margin : Nat := 64

/-- The value within its own estimate. -/
def ofJson (v : Json) : Except ConfigError Serialized := within (estimate v + margin) v

end Serialized

end DeviceConfig
