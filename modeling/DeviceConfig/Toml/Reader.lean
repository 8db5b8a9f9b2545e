/-
Reading TOML.

A text is a list of statements, each on a line of its own: headers, which open tables, and
entries, which go into the table opened last.
-/
import DeviceConfig.Toml.Literal
import DeviceConfig.Toml.Node
import DeviceConfig.Toml.Quoted

namespace DeviceConfig.Toml

/-! ### Blanks and comments -/

/-- The rest of the line after a comment sign, from its line break on. -/
def comment? : List Char → Option (List Char)
  | [] => some []
  | '\n' :: rest => some ('\n' :: rest)
  | '\r' :: '\n' :: rest => some ('\r' :: '\n' :: rest)
  | c :: rest => if isControl c then none else comment? rest

/-- The text after the end of a line, which may hold blanks and a comment. -/
def lineEnd? (text : List Char) : Option (List Char) := do
  let text ← match skipSpace text with
    | '#' :: rest => comment? rest
    | text => some text
  match text with
  | [] => some []
  | text => newline? text

/-- The text after blanks, line breaks and comments. -/
def skipLines (inComment : Bool) : List Char → List Char
  | '\n' :: rest => skipLines false rest
  | '\r' :: '\n' :: rest => skipLines false rest
  | '#' :: rest => skipLines true rest
  | c :: rest =>
    if inComment then if isControl c then c :: rest else skipLines true rest
    else if isSpace c then skipLines false rest
    else c :: rest
  | [] => []

/-! ### Keys -/

/-- A character of a key without quotes. -/
def isBare (c : Char) : Bool := c.isAlphanum || c == '-' || c == '_'

/-- One part of a key. -/
def part? : List Char → Option (String × List Char)
  | '"' :: rest => Quoted.line? ('"' :: rest)
  | '\'' :: rest => Quoted.line? ('\'' :: rest)
  | text =>
    let (name, rest) := text.span isBare
    if name.isEmpty then none else some (String.ofList name, rest)

/-- The parts of a key with points between them, and the text after it. -/
def parts? : (fuel : Nat) → List Char → Option (List String × List Char)
  | 0, _ => none
  | fuel + 1, text => do
    let (name, rest) ← part? (skipSpace text)
    match skipSpace rest with
    | '.' :: rest =>
      let (names, rest) ← parts? fuel rest
      some (name :: names, rest)
    | rest => some ([name], rest)

/-- How deep values may be nested, and how many parts a key may have. -/
def maxDepth : Nat := 79

/-- A key. -/
def key? (text : List Char) : Option (List String × List Char) := parts? maxDepth text

/-! ### Values -/

mutual

/-- A value nested in at most `depth` others. -/
def value? : (fuel depth : Nat) → List Char → Option (Node × List Char)
  | 0, _, _ => none
  | fuel + 1, depth, text =>
    match text with
    | '"' :: _ | '\'' :: _ => (Quoted.any? text).map fun (s, rest) => (.string s, rest)
    | '[' :: rest =>
      if depth = 0 then none
      else match skipLines false rest with
        | ']' :: rest => some (.array [], rest)
        | rest => (items? fuel (depth - 1) rest).map fun (xs, rest) => (.array xs, rest)
    | '\x7b' :: rest =>
      if depth = 0 then none
      else match skipSpace rest with
        | '\x7d' :: rest => some (.table .inline [], rest)
        | rest => (pairs? fuel (depth - 1) [] rest).map fun (es, rest) => (.table .inline es, rest)
    | 't' :: 'r' :: 'u' :: 'e' :: rest => some (.boolean true, rest)
    | 'f' :: 'a' :: 'l' :: 's' :: 'e' :: rest => some (.boolean false, rest)
    | text =>
      match Literal.time? text with
      | some rest => some (.time, rest)
      | none => match Literal.float? text with
        | some rest => some (.float, rest)
        | none => (Literal.integer? text).map fun (n, rest) => (.integer n, rest)

/-- The items of an array up to its closing bracket. -/
def items? : (fuel depth : Nat) → List Char → Option (List Node × List Char)
  | 0, _, _ => none
  | fuel + 1, depth, text => do
    let (x, rest) ← value? fuel depth text
    match skipLines false rest with
    | ',' :: rest =>
      match skipLines false rest with
      | ']' :: rest => some ([x], rest)
      | rest =>
        let (xs, rest) ← items? fuel depth rest
        some (x :: xs, rest)
    | ']' :: rest => some ([x], rest)
    | _ => none

/-- The entries of a table in braces, added to those before them. -/
def pairs? : (fuel depth : Nat) → Entries → List Char → Option (Entries × List Char)
  | 0, _, _, _ => none
  | fuel + 1, depth, entries, text => do
    let (key, rest) ← key? text
    match rest with
    | '=' :: rest =>
      let (x, rest) ← value? fuel depth (skipSpace rest)
      let entries ← Entries.assign x key entries
      match skipSpace rest with
      | ',' :: rest => pairs? fuel depth entries rest
      | '\x7d' :: rest => some (entries, rest)
      | _ => none
    | _ => none

end

/-! ### Statements -/

/-- What a line says. -/
inductive Statement where
  | table (path : List String)
  | element (path : List String)
  | entry (key : List String) (value : Node)

/-- A header after its brackets have been opened. -/
def header? (closing : List Char) (text : List Char) : Option (List String × List Char) := do
  let (path, rest) ← key? text
  let rest ← closing.isPrefixOf? rest
  some (path, ← lineEnd? rest)

/-- An entry. -/
def entry? (text : List Char) : Option (Statement × List Char) := do
  let (key, rest) ← key? text
  match rest with
  | '=' :: rest =>
    let (x, rest) ← value? (2 * rest.length + 2) maxDepth (skipSpace rest)
    some (.entry key x, ← lineEnd? rest)
  | _ => none

/-- The statements of a text.  Each of them uses up some of it. -/
def statements? : (fuel : Nat) → List Char → Option (List Statement)
  | 0, _ => none
  | fuel + 1, text =>
    match skipSpace text with
    | [] => some []
    | '#' :: rest => (lineEnd? ('#' :: rest)).bind (statements? fuel)
    | '[' :: '[' :: rest => do
      let (path, rest) ← header? [']', ']'] rest
      some (.element path :: (← statements? fuel rest))
    | '[' :: rest => do
      let (path, rest) ← header? [']'] rest
      some (.table path :: (← statements? fuel rest))
    | rest =>
      match newline? rest with
      | some rest => statements? fuel rest
      | none => do
        let (s, rest) ← entry? rest
        some (s :: (← statements? fuel rest))

/-! ### Building the tree -/

/-- The last part of a path and those before it. -/
def splitLast? (path : List String) : Option (List String × String) :=
  path.getLast?.map (path.dropLast, ·)

/-- The tree, and the table opened last. -/
structure Draft where
  root : Entries := []
  current : List String := []

/-- The tree after one more statement. -/
def Draft.add (d : Draft) : Statement → Option Draft
  | .table path => do
    let (parents, key) ← splitLast? path
    some ⟨← Entries.under (Entries.openTable key) parents d.root, path⟩
  | .element path => do
    let (parents, key) ← splitLast? path
    some ⟨← Entries.under (Entries.openElement key) parents d.root, path⟩
  | .entry key value => do
    some { d with root := ← Entries.under (Entries.assign value key) d.current d.root }

/-- The text without a byte-order mark. -/
def unmarked : List Char → List Char
  | '\uFEFF' :: text => text
  | text => text

/-- The entries that a text describes. -/
def ofText? (text : String) : Option Entries := do
  let chars := unmarked text.toList
  let statements ← statements? (chars.length + 1) chars
  let draft ← statements.foldlM Draft.add {}
  some draft.root

end DeviceConfig.Toml
