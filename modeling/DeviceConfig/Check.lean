/-
Checking an object against rules and against the checks of its parts.
-/
import DeviceConfig.Rule

namespace DeviceConfig

/-- A verdict on any object, reached without changing anything. -/
abbrev Check := Object → Verdict

namespace Check

/-- The check that accepts everything. -/
def anything : Check := fun _ => .ok ()

/-- The verdict of all parts with one name, in their order. -/
def named (parts : List (String × Check)) (name : String) : Check := fun fragment =>
  parts.forM fun part => if part.1 = name then part.2 fragment else .ok ()

/-- The verdict of the parts on one member.  Parts see only objects. -/
def member (parts : List (String × Check)) (name : String) (v : Json) : Verdict :=
  match v with
  | .object fragment => named parts name fragment
  | _ => .ok ()

/-- The verdict on an object: first that of its parts, by the object's keys, then that of
its own rules. -/
def object (rules : List Rule) (parts : List (String × Check)) : Check := fun candidate => do
  candidate.forM fun m => member parts m.1 m.2
  Rule.checkAll rules candidate

end Check

end DeviceConfig
