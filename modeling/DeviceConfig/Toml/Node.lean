/-
The tree that a TOML text describes.

Tables come about in different ways, and how a table came about decides who may add to it.
A header may open a table that other headers have only implied; dotted keys may add to what
dotted keys have made; a table written in braces is closed.
-/
namespace DeviceConfig.Toml

/-- How a table came about. -/
inductive Origin where
  /-- A header of its own. -/
  | header
  /-- A longer header. -/
  | implied
  /-- A dotted key. -/
  | dotted
  /-- Braces. -/
  | inline
  deriving DecidableEq, Repr

/-- A value.  Of floating-point numbers and of dates and times it is only known that they are
well formed. -/
inductive Node where
  | string (value : String)
  | integer (value : Int)
  | float
  | boolean (value : Bool)
  | time
  | array (items : List Node)
  | table (origin : Origin) (entries : List (String × Node))
  /-- A list of tables made by headers: the closed ones and the last. -/
  | tables (closed : List (List (String × Node))) (last : List (String × Node))

/-- The entries of a table. -/
abbrev Entries := List (String × Node)

namespace Entries

/-- The entries with the value of one key changed or added. -/
def alter (key : String) (f : Option Node → Option Node) : Entries → Option Entries
  | [] => (f none).map fun n => [(key, n)]
  | (k, n) :: rest =>
    if k = key then (f (some n)).map fun n => (k, n) :: rest
    else (alter key f rest).map ((k, n) :: ·)

/-- Changes the table that a header leads to.  Tables on the way are made if there are none. -/
def under (f : Entries → Option Entries) : List String → Entries → Option Entries
  | [] => f
  | key :: path => alter key fun found =>
    match found with
    | none => (under f path []).map (.table .implied)
    | some (.table .inline _) => none
    | some (.table origin entries) => (under f path entries).map (.table origin)
    | some (.tables closed last) => (under f path last).map (.tables closed)
    | some _ => none

/-- Opens the table of a header.  It must be new, or only implied so far. -/
def openTable (key : String) : Entries → Option Entries :=
  alter key fun found =>
    match found with
    | none => some (.table .header [])
    | some (.table .implied entries) => some (.table .header entries)
    | some _ => none

/-- Opens the next table of a list. -/
def openElement (key : String) : Entries → Option Entries :=
  alter key fun found =>
    match found with
    | none => some (.tables [] [])
    | some (.tables closed last) => some (.tables (closed ++ [last]) [])
    | some _ => none

/-- Gives a value to a dotted key, which must not have one. -/
def assign (value : Node) : List String → Entries → Option Entries
  | [], _ => none
  | [key], entries => alter key (fun found => if found.isSome then none else some value) entries
  | key :: next :: path, entries => alter key (fun found =>
    match found with
    | none => (assign value (next :: path) []).map (.table .dotted)
    | some (.table .dotted entries) => (assign value (next :: path) entries).map (.table .dotted)
    | some (.table .implied entries) =>
      if path.isEmpty then none else (assign value (next :: path) entries).map (.table .implied)
    | some (.tables closed last) =>
      if path.isEmpty then none else (assign value (next :: path) last).map (.tables closed)
    | some _ => none) entries

end Entries

end DeviceConfig.Toml
