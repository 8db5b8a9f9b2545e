/-
The request section: the id that ties a request to its response.
-/
import DeviceConfig.Check

namespace DeviceConfig

/-- The request section. -/
structure Request where
  id : String := ""
  deriving DecidableEq, Inhabited

namespace Request

/-- The verdict on a candidate: it has an id, and the id is a string. -/
def check : Check := fun candidate =>
  if Object.has candidate "req_id" then Rule.checkAll [.kind "req_id" .string] candidate
  else .error (.missingField "req_id")

/-- The section with the id of a candidate, if that has a string for one. -/
def take (candidate : Object) (r : Request) : Request :=
  ⟨(Object.string? candidate "req_id").getD r.id⟩

def toJson (r : Request) : Json := .ofMembers [("req_id", .string r.id)]

end Request

end DeviceConfig
