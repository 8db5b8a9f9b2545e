/-
Strings in TOML.

In double quotes a backslash escapes, in single quotes nothing does.  Three quotes open a
string of several lines, whose first line break does not count if it follows at once.  Every
line break in it is read as a line feed.
-/
import DeviceConfig.Text.Digits

namespace DeviceConfig.Toml

/-- A character that may not stand in a string or a comment. -/
def isControl (c : Char) : Bool := (c.toNat < 0x20 && c != '\t') || c.toNat == 0x7f

/-- Blanks within a line. -/
def isSpace (c : Char) : Bool := c == ' ' || c == '\t'

def skipSpace (text : List Char) : List Char := text.dropWhile isSpace

/-- The text after a line break, if it starts with one. -/
def newline? : List Char → Option (List Char)
  | '\n' :: rest => some rest
  | '\r' :: '\n' :: rest => some rest
  | _ => none

namespace Quoted

/-- The character that a backslash and a letter stand for. -/
def escaped? : Char → Option Char
  | 'b' => some '\x08'
  | 't' => some '\t'
  | 'n' => some '\n'
  | 'f' => some '\x0c'
  | 'r' => some '\r'
  | '"' => some '"'
  | '\\' => some '\\'
  | _ => none

/-- The character that hexadecimal digits number. -/
def numbered? (digits : List Char) : Option Char :=
  (Text.digitsValue? 16 digits).bind fun n => if n.isValidChar then some (Char.ofNat n) else none

/-- A string on one line, after its double quote. -/
def basic? : List Char → Option (List Char × List Char)
  | '"' :: rest => some ([], rest)
  | '\\' :: 'u' :: a :: b :: c :: d :: rest => do
    let x ← numbered? [a, b, c, d]
    let (xs, rest) ← basic? rest
    some (x :: xs, rest)
  | '\\' :: 'U' :: a :: b :: c :: d :: e :: f :: g :: h :: rest => do
    let x ← numbered? [a, b, c, d, e, f, g, h]
    let (xs, rest) ← basic? rest
    some (x :: xs, rest)
  | '\\' :: e :: rest => do
    let x ← escaped? e
    let (xs, rest) ← basic? rest
    some (x :: xs, rest)
  | c :: rest =>
    if isControl c then none else (basic? rest).map fun (xs, rest) => (c :: xs, rest)
  | [] => none

/-- A string on one line, after its single quote. -/
def literal? : List Char → Option (List Char × List Char)
  | '\'' :: rest => some ([], rest)
  | c :: rest =>
    if isControl c then none else (literal? rest).map fun (xs, rest) => (c :: xs, rest)
  | [] => none

/-- A backslash here would end the line: there is nothing after it but blanks. -/
def endsLine (text : List Char) : Bool := (newline? (skipSpace text)).isSome

/-- A string of several lines, after its double quotes.  While `skipping`, blanks and line
breaks do not count. -/
def basicLines? (skipping : Bool) : List Char → Option (List Char × List Char)
  | '"' :: '"' :: '"' :: '"' :: '"' :: '"' :: _ => none
  | '"' :: '"' :: '"' :: '"' :: '"' :: rest => some (['"', '"'], rest)
  | '"' :: '"' :: '"' :: '"' :: rest => some (['"'], rest)
  | '"' :: '"' :: '"' :: rest => some ([], rest)
  | '\r' :: '\n' :: rest =>
    if skipping then basicLines? true rest
    else (basicLines? false rest).map fun (xs, rest) => ('\n' :: xs, rest)
  | '\\' :: 'u' :: a :: b :: c :: d :: rest => do
    let x ← numbered? [a, b, c, d]
    let (xs, rest) ← basicLines? false rest
    some (x :: xs, rest)
  | '\\' :: 'U' :: a :: b :: c :: d :: e :: f :: g :: h :: rest => do
    let x ← numbered? [a, b, c, d, e, f, g, h]
    let (xs, rest) ← basicLines? false rest
    some (x :: xs, rest)
  | '\\' :: e :: rest =>
    if endsLine (e :: rest) then
      if e == '\r' || e == '\n' || isSpace e then basicLines? true rest else none
    else do
      let x ← escaped? e
      let (xs, rest) ← basicLines? false rest
      some (x :: xs, rest)
  | c :: rest =>
    if skipping && (isSpace c || c == '\n') then basicLines? true rest
    else if isControl c && c != '\n' then none
    else (basicLines? false rest).map fun (xs, rest) => (c :: xs, rest)
  | [] => none

/-- A string of several lines, after its single quotes. -/
def literalLines? : List Char → Option (List Char × List Char)
  | '\'' :: '\'' :: '\'' :: '\'' :: '\'' :: '\'' :: _ => none
  | '\'' :: '\'' :: '\'' :: '\'' :: '\'' :: rest => some (['\'', '\''], rest)
  | '\'' :: '\'' :: '\'' :: '\'' :: rest => some (['\''], rest)
  | '\'' :: '\'' :: '\'' :: rest => some ([], rest)
  | '\r' :: '\n' :: rest => (literalLines? rest).map fun (xs, rest) => ('\n' :: xs, rest)
  | c :: rest =>
    if isControl c && c != '\n' then none
    else (literalLines? rest).map fun (xs, rest) => (c :: xs, rest)
  | [] => none

/-- The text without a line break at its start. -/
def trimBreak (text : List Char) : List Char := (newline? text).getD text

/-- A string on one line. -/
def line? : List Char → Option (String × List Char)
  | '"' :: rest => (basic? rest).map fun (xs, rest) => (String.ofList xs, rest)
  | '\'' :: rest => (literal? rest).map fun (xs, rest) => (String.ofList xs, rest)
  | _ => none

/-- Any string. -/
def any? : List Char → Option (String × List Char)
  | '"' :: '"' :: '"' :: rest =>
    (basicLines? false (trimBreak rest)).map fun (xs, rest) => (String.ofList xs, rest)
  | '\'' :: '\'' :: '\'' :: rest =>
    (literalLines? (trimBreak rest)).map fun (xs, rest) => (String.ofList xs, rest)
  | text => line? text

end Quoted

end DeviceConfig.Toml
