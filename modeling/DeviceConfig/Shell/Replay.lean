/-
Files that are only asked about.

Whoever has real files at hand can run a function of files without giving it any: the function
gets answers from a list, and what it asks beyond the list is noted.  With that answer added
it is run again, and as functions do the same every time, it comes to the next question.
-/
import DeviceConfig.Shell.Files

namespace DeviceConfig

/-- A question about files, or a change to be made. -/
inductive FileQuestion where
  | present (path : String)
  | read (path : String)
  | makeDirectory (path : String)
  | setMode (path : String) (mode : Mode)
  | write (path : String) (mode : Mode) (text : String)
  deriving DecidableEq, Repr

/-- The answer to a question: a refusal, or a text, which is empty unless it is asked for. -/
abbrev FileAnswer := Except FileError String

/-- Answers yet to be given, and the first question that had none. -/
structure Replay where
  answers : List FileAnswer := []
  open? : Option FileQuestion := none

namespace Replay

/-- The next answer.  A question without one is noted, unless there is one already. -/
def ask (q : FileQuestion) (r : Replay) : FileAnswer × Replay :=
  match r.answers with
  | a :: answers => (a, { r with answers })
  | [] => (.error .notFound, { r with open? := r.open? <|> some q })

/-- The next answer, of which only the refusal matters. -/
def order (q : FileQuestion) (r : Replay) : Except FileError Unit × Replay :=
  let (a, r) := r.ask q
  (a.map fun _ => (), r)

instance : FileStore Replay where
  present path r :=
    let (a, r) := r.ask (.present path)
    (a.isOk, r)
  read path := ask (.read path)
  makeDirectory path := order (.makeDirectory path)
  setMode path mode := order (.setMode path mode)
  write path mode text := order (.write path mode text)

end Replay

end DeviceConfig
