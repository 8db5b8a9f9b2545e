/-
Status codes of a response.

`ok` is the only success.  Every other code marks a configuration that was rejected or only
partly applied.
-/
namespace DeviceConfig

/-- The status of a response. -/
inductive Code where
  | ok
  | cancelled
  | unknown
  | invalidArgument
  | deadlineExceeded
  | notFound
  | alreadyExists
  | permissionDenied
  | resourceExhausted
  | failedPrecondition
  | aborted
  | outOfRange
  | unimplemented
  | internal
  | unavailable
  | dataLoss
  | unauthenticated
  deriving DecidableEq, Repr, Inhabited

namespace Code

/-- Every code, in the order of their numbers. -/
def all : List Code :=
  [ok, cancelled, unknown, invalidArgument, deadlineExceeded, notFound, alreadyExists,
    permissionDenied, resourceExhausted, failedPrecondition, aborted, outOfRange,
    unimplemented, internal, unavailable, dataLoss, unauthenticated]

/-- The number of a code, as a response carries it. -/
def toWord : Code → UInt32
  | ok => 0
  | cancelled => 1
  | unknown => 2
  | invalidArgument => 3
  | deadlineExceeded => 4
  | notFound => 5
  | alreadyExists => 6
  | permissionDenied => 7
  | resourceExhausted => 8
  | failedPrecondition => 9
  | aborted => 10
  | outOfRange => 11
  | unimplemented => 12
  | internal => 13
  | unavailable => 14
  | dataLoss => 15
  | unauthenticated => 16

/-- The code with a number, if there is one. -/
def ofWord? (w : UInt32) : Option Code := all.find? (·.toWord == w)

theorem ofWord?_toWord (c : Code) : ofWord? c.toWord = some c := by
  cases c <;> rfl

end Code

end DeviceConfig
