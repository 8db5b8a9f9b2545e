/-
Why a configuration is not applied.

An error knows the code that it puts into a response and the text that goes with it.
-/
import DeviceConfig.Response.Code

namespace DeviceConfig

/-- What can go wrong with a configuration document. -/
inductive ConfigError where
  /-- The text is not JSON. -/
  | parse (detail : String)
  /-- The text is JSON but not an object. -/
  | notAnObject
  | missingField (name : String)
  | invalidField (code : Code) (message : String)
  /-- The sensor refused a property. -/
  | sensor (code : Code) (message : String)
  /-- The application refused its settings. -/
  | configure (code : Code) (message : String)
  | serialization (detail : String)
  deriving DecidableEq, Repr

namespace ConfigError

/-- A field whose value is not allowed. -/
def invalid (message : String) : ConfigError := .invalidField .invalidArgument message

/-- The code of a response to a request that failed in this way. -/
def code : ConfigError → Code
  | parse _ | notAnObject | missingField _ => .invalidArgument
  | invalidField code _ | sensor code _ | configure code _ => code
  | serialization _ => .internal

/-- The text of a response to a request that failed in this way. -/
def message : ConfigError → String
  | parse detail => s!"Document parse error: {detail}"
  | notAnObject => "Document root is not an object"
  | missingField name => s!"{name} missing"
  | invalidField _ message | sensor _ message | configure _ message => message
  | serialization detail => s!"Serialization error: {detail}"

end ConfigError

/-- Success, or the error that prevented it. -/
abbrev Verdict := Except ConfigError Unit

namespace Verdict

instance : DecidableEq Verdict
  | .ok (), .ok () => isTrue rfl
  | .ok (), .error _ => isFalse nofun
  | .error _, .ok () => isFalse nofun
  | .error e, .error f => decidable_of_iff (e = f) ⟨congrArg _, Except.error.inj⟩

/-- Success. -/
def accepted : Verdict := .ok ()

/-- The later of two outcomes, except that a success does not hide an earlier failure. -/
def lastFailure : Verdict → Verdict → Verdict
  | earlier, .ok () => earlier
  | _, .error e => .error e

end Verdict

end DeviceConfig
