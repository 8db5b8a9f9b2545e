/-
The application's own section.

Nothing here is interpreted.  When the settings change, they are stored with a stamp that
ties them to the request, and handed to the application.  If the application rejects them,
the stamp says so.
-/
import DeviceConfig.Cycle
import DeviceConfig.Json.Written

namespace DeviceConfig

/-- The application's own section. -/
structure Custom where
  settings : Object := []
  deriving Inhabited

namespace Custom

variable {S H : Type}

/-- The field that carries the stamp. -/
def stampField : String := "res_info"

/-- Settings with a stamp on them. -/
def stamp (r : Record) (settings : Object) : Object :=
  Object.insert stampField r.toJson settings

/-- Settings without their stamp. -/
def bare (settings : Object) : Object := Object.erase stampField settings

/-- The stamp of a request that has not failed. -/
def accepted (requestId : String) : Record := { resId := requestId }

/-- The stamp of a request that the application has rejected. -/
def rejected (requestId : String) (e : ConfigError) : Record :=
  ⟨requestId, e.code.toWord, e.message⟩

/-- The settings are the same apart from their stamps. -/
def unchanged (old new : Object) : Bool := Json.object (bare old) == .object (bare new)

/-- Applies new settings. -/
def apply [Hook H] (candidate : Object) : Step Custom S H := fun a c =>
  if unchanged a.settings candidate then ⟨a, c, .ok ()⟩
  else
    let settings := stamp (accepted c.requestId) candidate
    match c.raise.configure "custom_settings" (Json.object settings).text with
    | (.ok (), c) => ⟨⟨settings⟩, c, .ok ()⟩
    | (.error e, c) => ⟨⟨stamp (rejected c.requestId e) settings⟩, c, .error e⟩

/-- Replaces the settings by what the application itself says they are.  A text that is not an
object is ignored. -/
def store (text : String) (a : Custom) : Custom :=
  match Object.ofText? text with
  | some settings => ⟨settings⟩
  | none => a

def toJson (a : Custom) : Json := .object a.settings

end Custom

end DeviceConfig
