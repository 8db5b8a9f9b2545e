/-
Extractors that read one parameter of a known kind.
-/
import DeviceConfig.Decimal.Text
import DeviceConfig.Parameters.Extraction
import DeviceConfig.Sensor.Exchange

namespace DeviceConfig.Extractor

/-- Reads the parameter with a name into the field with that name. -/
def field (name : String) (read : Option Json → Except String Json) : Extractor Object :=
  fun parameters value =>
    match read (Object.field? parameters name) with
    | .ok v => (.ok (), Object.insert name v value)
    | .error message => (.error message, value)

/-- What is said of a parameter that is not there or not of its kind. -/
def missing (name : String) : String := s!"{name} missing"

/-- An unsigned 64-bit integer. -/
def long (name : String) : Extractor Object :=
  field name fun found =>
    match found.bind fun v => v.number?.bind Number.long? with
    | some n => .ok (.number (.ofLong n))
    | none => .error (missing name)

/-- How a number appears in a message: no exponent, and no fraction if it is whole. -/
def plain : Decimal.Style := ⟨none, false⟩

/-- What is said of a number that is not between zero and one. -/
def outOfRange (name : String) (x : Double) : String :=
  s!"{name} {String.ofList (plain.write x)} out of range"

/-- A number from zero to one. -/
def unit (name : String) : Extractor Object :=
  field name fun found =>
    match found.bind Json.double? with
    | some x =>
      if (0 : Double).toInt ≤ x.toInt ∧ x.toInt ≤ (1 : Double).toInt then .ok (.number (.double x))
      else .error (outOfRange name x)
    | none => .error (missing name)

/-- A string. -/
def string (name : String) : Extractor Object :=
  field name fun found =>
    match found.bind Json.string? with
    | some s => .ok (.string s)
    | none => .error (missing name)

end DeviceConfig.Extractor
