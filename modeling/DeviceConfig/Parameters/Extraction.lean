/-
Parameters of a model, taken out of the application's settings.

The settings hold them under `ai_models`, the name of the model and `parameters`.  Extractors
read them into a copy of the present value one after the other.  The copy takes the value's
place only if every one of them succeeds; otherwise the value stays as it was and the error
is kept.
-/
import DeviceConfig.Hook
import DeviceConfig.Json.Pointer
import DeviceConfig.Response.Record

namespace DeviceConfig

/-- Reads some parameters into a value.  It may change the value and then fail. -/
abbrev Extractor (α : Type) := Object → α → Except String Unit × α

/-- A value that is filled from settings. -/
structure Parameters (α : Type) where
  /-- The name of the model, which is taken into a path as it stands. -/
  model : String
  extractors : List (Extractor α)
  value : α
  /-- The response to the last settings, if they were rejected. -/
  lastError : Option Envelope := none

namespace Parameters

variable {α : Type}

/-- Runs extractors one after the other up to the first that fails. -/
def run (parameters : Object) : List (Extractor α) → α → Except String α
  | [], a => .ok a
  | f :: rest, a =>
    match f parameters a with
    | (.ok (), a) => run parameters rest a
    | (.error message, _) => .error message

/-- Where the parameters of a model are. -/
def path (model : String) : String := s!"/ai_models/{model}/parameters"

/-- The parameters of a model in some settings. -/
def find? (model : String) (settings : Json) : Option Object :=
  (settings.at? (path model)).bind Json.object?

/-- The request that some settings belong to; empty if they do not say. -/
def requestId (settings : Json) : String :=
  ((settings.at? "/res_info/res_id").bind Json.string?).getD ""

/-- Keeps an error and answers with it. -/
def reject (requestId message : String) (p : Parameters α) : Verdict × Parameters α :=
  let record := { resId := requestId, code := Code.invalidArgument.toWord, detail := message }
  (.error (.configure .invalidArgument message), { p with lastError := some ⟨record⟩ })

/-- Takes the parameters out of some settings. -/
def configureWith (settings : Json) (p : Parameters α) : Verdict × Parameters α :=
  match find? p.model settings with
  | none => p.reject (requestId settings) "Error accessing AI model parameters in JSON object"
  | some parameters =>
    match run parameters p.extractors p.value with
    | .error message => p.reject (requestId settings) message
    | .ok value => (.ok (), { p with value, lastError := none })

/-- Takes the parameters out of the text of some settings. -/
def configure (text : String) (p : Parameters α) : Verdict × Parameters α :=
  match Json.ofText? text with
  | none => p.reject "" "Error parsing custom settings JSON"
  | some settings => p.configureWith settings

instance : Hook (Parameters α) := ⟨fun p _ settings => p.configure settings⟩

/-- The last error as text. -/
def errorText? (p : Parameters α) : Option String := p.lastError.map Envelope.text

end Parameters

end DeviceConfig
