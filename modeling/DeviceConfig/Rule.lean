/-
Rules on the fields of an object.

A comparison looks only at numbers; a value of another kind is left to a rule on its kind, if
there is one.  The rules of a table are taken by the object's keys, and for one key in the
order of the table.
-/
import DeviceConfig.Decimal.Text
import DeviceConfig.Json.Object
import DeviceConfig.Response.Error

namespace DeviceConfig

/-- How a number has to stand to a limit. -/
inductive Comparison where
  | above | atLeast | below | atMost | differs
  deriving DecidableEq, Repr

namespace Comparison

/-- The sign of a comparison. -/
def symbol : Comparison → String
  | above => ">"
  | atLeast => ">="
  | below => "<"
  | atMost => "<="
  | differs => "!="

/-- Every comparison. -/
def all : List Comparison := [above, atLeast, below, atMost, differs]

/-- The comparison with a given sign. -/
def ofSymbol? (symbol : String) : Option Comparison := all.find? (·.symbol == symbol)

/-- The number stands to the limit as it has to. -/
def holds (c : Comparison) (number limit : Double) : Bool :=
  match c with
  | above => limit.toInt < number.toInt
  | atLeast => limit.toInt ≤ number.toInt
  | below => number.toInt < limit.toInt
  | atMost => number.toInt ≤ limit.toInt
  | differs => number.toInt != limit.toInt

end Comparison

/-- A condition on one value. -/
inductive Constraint where
  | bound (comparison : Comparison) (limit : Double)
  | kind (kind : Kind)

namespace Constraint

/-- The value meets the condition. -/
def admits (c : Constraint) (v : Json) : Bool :=
  match c with
  | bound comparison limit =>
    match v.double? with
    | some number => comparison.holds number limit
    | none => true
  | kind k => v.kind == k

/-- How the condition reads after `not`. -/
def text : Constraint → String
  | bound comparison limit => s!"{comparison.symbol} {Decimal.fixed 6 limit}"
  | kind k => s!"of type {k.name}"

end Constraint

/-- A condition on one field. -/
structure Rule where
  field : String
  constraint : Constraint

namespace Rule

/-- The field is a number. -/
def number (field : String) : Rule := ⟨field, .kind .number⟩

/-- The field is at least a limit. -/
def atLeast (field : String) (limit : Double) : Rule := ⟨field, .bound .atLeast limit⟩

/-- The field is at most a limit. -/
def atMost (field : String) (limit : Double) : Rule := ⟨field, .bound .atMost limit⟩

/-- The field differs from a limit. -/
def differs (field : String) (limit : Double) : Rule := ⟨field, .bound .differs limit⟩

/-- The field is of a kind. -/
def kind (field : String) (kind : Kind) : Rule := ⟨field, .kind kind⟩

/-- The field is a number within limits. -/
def range (field : String) (low high : Double) : List Rule :=
  [number field, atLeast field low, atMost field high]

/-- The field is a number that is not negative. -/
def natural (field : String) : List Rule := [number field, atLeast field 0]

/-- The error of a field that breaks the rule. -/
def violation (r : Rule) : ConfigError := .invalid s!"{r.field} not {r.constraint.text}"

/-- The verdict of one rule on the value of its field. -/
def check (r : Rule) (v : Json) : Verdict :=
  if r.constraint.admits v then .ok () else .error r.violation

/-- The verdict of a table on the value of one field. -/
def checkField (rules : List Rule) (name : String) (v : Json) : Verdict :=
  (rules.filter (·.field == name)).forM (·.check v)

/-- The verdict of a table on an object: that of the first rule to be broken. -/
def checkAll (rules : List Rule) (candidate : Object) : Verdict :=
  candidate.forM fun member => checkField rules member.1 member.2

end Rule

end DeviceConfig
