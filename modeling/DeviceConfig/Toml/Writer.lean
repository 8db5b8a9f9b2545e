/-
Writing strings in TOML.

The plainest of the four forms is taken that can show the string without escapes.  If none
can, the string is escaped, over several lines if it has line breaks.
-/
import DeviceConfig.Text.Digits

namespace DeviceConfig.Toml.Writer

/-- A string has a character that cannot be shown as it is. -/
def hasControl (cs : List Char) : Bool :=
  cs.any fun c => (c.toNat < 0x20 && c != '\t' && c != '\n') || c.toNat == 0x7f

/-- The length of the longest run of a character, of which `run` have just been seen. -/
def longestRun (x : Char) (run : Nat) : List Char → Nat
  | [] => run
  | c :: cs => if c = x then longestRun x (run + 1) cs else max run (longestRun x 0 cs)

/-- A character between double quotes. -/
def escape (lines : Bool) (c : Char) : List Char :=
  if c = '\\' then ['\\', '\\']
  else if c = '\x08' then ['\\', 'b']
  else if c = '\t' then ['\\', 't']
  else if c = '\n' then if lines then ['\n'] else ['\\', 'n']
  else if c = '\x0c' then ['\\', 'f']
  else if c = '\r' then ['\\', 'r']
  else if c.toNat < 0x20 ∨ c.toNat = 0x7f then '\\' :: 'u' :: (Text.hex 4 c.toNat).toList
  else [c]

/-- The inside of double quotes.  Of a run of quotes, `allowed` may stand as they are before
one has to be escaped; `run` have just been written. -/
def escapeAll (lines : Bool) (allowed run : Nat) : List Char → List Char
  | [] => []
  | c :: cs =>
    if c = '"' then
      if run < allowed then '"' :: escapeAll lines allowed (run + 1) cs
      else '\\' :: '"' :: escapeAll lines allowed 0 cs
    else escape lines c ++ escapeAll lines allowed 0 cs

/-- The line break after the quotes of a string with line breaks. -/
def opening (cs : List Char) : List Char := if cs.contains '\n' then ['\n'] else []

def basic (cs : List Char) : List Char := '"' :: (escapeAll false 0 0 cs ++ ['"'])

def literal (cs : List Char) : List Char := '\'' :: (cs ++ ['\''])

def basicLines (cs : List Char) : List Char :=
  List.replicate 3 '"' ++ opening cs ++ escapeAll true 2 0 cs ++ List.replicate 3 '"'

def literalLines (cs : List Char) : List Char :=
  List.replicate 3 '\'' ++ opening cs ++ cs ++ List.replicate 3 '\''

/-- A string in the plainest form that can show it. -/
def string (s : String) : String :=
  let cs := s.toList
  let control := hasControl cs
  let breaks := cs.contains '\n'
  let backslash := cs.contains '\\'
  let double := longestRun '"' 0 cs
  let single := longestRun '\'' 0 cs
  String.ofList <|
    if !control && !backslash && double == 0 && !breaks then basic cs
    else if !control && single == 0 && !breaks then literal cs
    else if !control && !backslash && double ≤ 2 then basicLines cs
    else if !control && single ≤ 2 then literalLines cs
    else if breaks then basicLines cs
    else basic cs

end DeviceConfig.Toml.Writer
