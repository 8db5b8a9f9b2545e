/-
JSON text as it is written.

`Written` keeps what a value no longer shows: the spelling of numbers, the order of members
and repeated keys.  Reading happens in two steps.  `Written.ofText?` answers for the grammar
alone, and `Written.value?` for what the grammar allows and a value does not: numbers beyond
every double, escapes that name half a character, and nesting beyond 127 levels.
-/
import DeviceConfig.Json.Numeral
import DeviceConfig.Json.Object
import DeviceConfig.Text.Digits

namespace DeviceConfig

/-- A JSON text, read but not yet valued.  A string that names half of a surrogate pair has
no content. -/
inductive Written where
  | null
  | bool (value : Bool)
  | numeral (value : Numeral)
  | string (content : Option String)
  | array (items : List Written)
  | object (members : List (Option String × Written))

namespace Written

/-- The characters that may stand between tokens. -/
def isBlank (c : Char) : Bool := c == ' ' || c == '\t' || c == '\n' || c == '\r'

def skipBlank (text : List Char) : List Char := text.dropWhile isBlank

/-! ### Strings -/

/-- What a string is made of: characters, and code units given by number. -/
inductive Piece where
  | char (c : Char)
  | unit (n : Nat)

/-- The character that a backslash and a letter stand for. -/
def escaped? : Char → Option Char
  | '"' => some '"'
  | '\\' => some '\\'
  | '/' => some '/'
  | 'b' => some '\x08'
  | 'f' => some '\x0c'
  | 'n' => some '\n'
  | 'r' => some '\r'
  | 't' => some '\t'
  | _ => none

/-- The code unit that four hexadecimal digits name. -/
def unit? (a b c d : Char) : Option Nat := do
  let a ← Text.hexDigit? a
  let b ← Text.hexDigit? b
  let c ← Text.hexDigit? c
  let d ← Text.hexDigit? d
  some (4096 * a + 256 * b + 16 * c + d)

/-- The rest of a string after its opening quote, up to the closing one. -/
def pieces? : List Char → Option (List Piece × List Char)
  | '"' :: rest => some ([], rest)
  | '\\' :: 'u' :: a :: b :: c :: d :: rest => do
    let n ← unit? a b c d
    let (ps, rest) ← pieces? rest
    some (.unit n :: ps, rest)
  | '\\' :: e :: rest => do
    let c ← escaped? e
    let (ps, rest) ← pieces? rest
    some (.char c :: ps, rest)
  | c :: rest =>
    if c.toNat < 0x20 then none
    else (pieces? rest).map fun (ps, rest) => (.char c :: ps, rest)
  | [] => none

/-- The first half of a surrogate pair. -/
def isHigh (n : Nat) : Bool := 0xD800 ≤ n && n < 0xDC00

/-- The second half of a surrogate pair. -/
def isLow (n : Nat) : Bool := 0xDC00 ≤ n && n < 0xE000

/-- The characters that some pieces spell, unless half a pair stands alone. -/
def join? : List Piece → Option (List Char)
  | [] => some []
  | .char c :: rest => (join? rest).map (c :: ·)
  | .unit high :: .unit low :: rest =>
    if isHigh high then
      if isLow low then
        (join? rest).map (Char.ofNat (0x10000 + (high - 0xD800) * 0x400 + (low - 0xDC00)) :: ·)
      else none
    else if isLow high then none
    else (join? (.unit low :: rest)).map (Char.ofNat high :: ·)
  | .unit n :: rest =>
    if isHigh n || isLow n then none else (join? rest).map (Char.ofNat n :: ·)

/-- A string after its opening quote: its content, and the text after the closing quote. -/
def string? (text : List Char) : Option (Option String × List Char) :=
  (pieces? text).map fun (ps, rest) => ((join? ps).map String.ofList, rest)

/-! ### Values

The functions below read one value, or what remains of a container after its opening
bracket.  Each step uses up at least one character in two units of fuel.
-/

/-- The text after a word, if it starts with that word. -/
def word? (word : String) (value : Written) (text : List Char) : Option (Written × List Char) :=
  (word.toList.isPrefixOf? text).map (value, ·)

mutual

/-- The value at the start of a text, and the rest. -/
def item? : Nat → List Char → Option (Written × List Char)
  | 0, _ => none
  | fuel + 1, text =>
    match skipBlank text with
    | '"' :: rest => (string? rest).map fun (s, rest) => (.string s, rest)
    | '[' :: rest =>
      match skipBlank rest with
      | ']' :: rest => some (.array [], rest)
      | rest => (items? fuel rest).map fun (xs, rest) => (.array xs, rest)
    | '\x7b' :: rest =>
      match skipBlank rest with
      | '\x7d' :: rest => some (.object [], rest)
      | rest => (members? fuel rest).map fun (xs, rest) => (.object xs, rest)
    | 'n' :: rest => word? "ull" .null rest
    | 't' :: rest => word? "rue" (.bool true) rest
    | 'f' :: rest => word? "alse" (.bool false) rest
    | rest => (Numeral.read? rest).map fun (n, rest) => (.numeral n, rest)

/-- The items of an array up to its closing bracket. -/
def items? : Nat → List Char → Option (List Written × List Char)
  | 0, _ => none
  | fuel + 1, text => do
    let (x, rest) ← item? fuel text
    match skipBlank rest with
    | ',' :: rest =>
      let (xs, rest) ← items? fuel rest
      some (x :: xs, rest)
    | ']' :: rest => some ([x], rest)
    | _ => none

/-- The members of an object up to its closing brace. -/
def members? : Nat → List Char → Option (List (Option String × Written) × List Char)
  | 0, _ => none
  | fuel + 1, text =>
    match skipBlank text with
    | '"' :: rest => do
      let (key, rest) ← string? rest
      match skipBlank rest with
      | ':' :: rest =>
        let (x, rest) ← item? fuel rest
        match skipBlank rest with
        | ',' :: rest =>
          let (xs, rest) ← members? fuel rest
          some ((key, x) :: xs, rest)
        | '\x7d' :: rest => some ([(key, x)], rest)
        | _ => none
      | _ => none
    | _ => none

end

/-- A whole text: one value with nothing but blanks around it. -/
def ofText? (text : String) : Option Written :=
  let chars := text.toList
  match item? (2 * chars.length + 2) chars with
  | some (value, rest) => if (skipBlank rest).isEmpty then some value else none
  | none => none

/-! ### The value -/

/-- How deep arrays and objects may be nested. -/
def maxDepth : Nat := 127

mutual

/-- The value of a text whose containers go at most `depth` deep.  Of a repeated key the last
member counts. -/
def value? (depth : Nat) : Written → Option Json
  | .null => some .null
  | .bool b => some (.bool b)
  | .numeral n => n.value?.map .number
  | .string s => s.map .string
  | .array items =>
    match depth with
    | 0 => none
    | depth + 1 => (values? depth items).map .array
  | .object members =>
    match depth with
    | 0 => none
    | depth + 1 => (memberValues? depth members).map .ofMembers

/-- The values of some items. -/
def values? (depth : Nat) : List Written → Option (List Json)
  | [] => some []
  | x :: xs => do
    let v ← value? depth x
    let vs ← values? depth xs
    some (v :: vs)

/-- The keys and values of some members. -/
def memberValues? (depth : Nat) : List (Option String × Written) → Option (List (String × Json))
  | [] => some []
  | (key, x) :: xs => do
    let k ← key
    let v ← value? depth x
    let vs ← memberValues? depth xs
    some ((k, v) :: vs)

end

end Written

/-- The value that a text spells, if it is a JSON text. -/
def Json.ofText? (text : String) : Option Json :=
  (Written.ofText? text).bind (Written.value? Written.maxDepth)

/-- The object that a text spells, if it is a JSON text of an object. -/
def Object.ofText? (text : String) : Option Object :=
  (Json.ofText? text).bind Json.object?

end DeviceConfig
