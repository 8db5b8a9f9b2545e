/-
Picture properties that are single numbers.
-/
import DeviceConfig.Check
import DeviceConfig.Cycle
import DeviceConfig.Slots

namespace DeviceConfig

/-- The picture properties that are single numbers, in the order in which they are applied. -/
inductive Scalar where
  | digitalZoom
  | exposureMode
  | evCompensation
  | antiFlickerMode
  | whiteBalanceMode
  | imageRotation
  deriving DecidableEq, Repr

/-- What is known of each scalar.  The sensor is believed even if it reports another
property than it was asked for. -/
abbrev Scalars := Slots Scalar fun _ => Property

namespace Scalar

variable {S H : Type}

/-- Every scalar, in the order in which they are applied. -/
def all : List Scalar :=
  [digitalZoom, exposureMode, evCompensation, antiFlickerMode, whiteBalanceMode, imageRotation]

/-- The name of a scalar in a document. -/
def field : Scalar → String
  | digitalZoom => "digital_zoom"
  | exposureMode => "exposure_mode"
  | evCompensation => "ev_compensation"
  | antiFlickerMode => "ae_anti_flicker_mode"
  | whiteBalanceMode => "white_balance_mode"
  | imageRotation => "image_rotation"

/-- The scalar with a given name. -/
def ofField? (field : String) : Option Scalar := all.find? (·.field == field)

/-- The sensor property of a scalar. -/
def key : Scalar → Key
  | digitalZoom => .digitalZoom
  | exposureMode => .exposureMode
  | evCompensation => .evCompensation
  | antiFlickerMode => .antiFlickerMode
  | whiteBalanceMode => .whiteBalanceMode
  | imageRotation => .imageRotation

/-- What the response says when the sensor refuses a scalar. -/
def failure : Scalar → String
  | digitalZoom => "Digital zoom property failed to be set."
  | exposureMode => "Exposure mode property failed to be set."
  | evCompensation => "Ev compensation property failed to be set."
  | antiFlickerMode => "Anti flicker mode property failed to be set."
  | whiteBalanceMode => "White balance mode property failed to be set."
  | imageRotation => "Image rotation property failed to be set."

/-- The rules on a scalar.  Exposure modes 1 and 2 are not offered. -/
def rules (s : Scalar) : List Rule :=
  match s with
  | digitalZoom | evCompensation => [.number s.field]
  | exposureMode => Rule.range s.field 0 3 ++ [.differs s.field 1, .differs s.field 2]
  | antiFlickerMode | imageRotation => Rule.range s.field 0 3
  | whiteBalanceMode => Rule.range s.field 0 1

/-- The property that a number stands for. -/
def property (s : Scalar) (x : Double) : Property :=
  match s with
  | digitalZoom => ⟨.digitalZoom, Single.ofDouble x⟩
  | exposureMode => ⟨.exposureMode, x.toWord⟩
  | evCompensation => ⟨.evCompensation, Single.ofDouble x⟩
  | antiFlickerMode => ⟨.antiFlickerMode, x.toWord⟩
  | whiteBalanceMode => ⟨.whiteBalanceMode, x.toWord⟩
  | imageRotation => ⟨.imageRotation, x.toWord⟩

@[simp] theorem key_property (s : Scalar) (x : Double) : (s.property x).key = s.key := by
  cases s <;> rfl

/-- The document value of a property that is one number, and `null` for any other. -/
def valueToJson : Property → Json
  | ⟨.digitalZoom, x⟩ => .single x
  | ⟨.evCompensation, x⟩ => .single x
  | ⟨.exposureMode, w⟩ => .word w
  | ⟨.antiFlickerMode, w⟩ => .word w
  | ⟨.whiteBalanceMode, w⟩ => .word w
  | ⟨.imageRotation, w⟩ => .word w
  | _ => .null

/-- The document value of a scalar, `null` as long as it is not known. -/
def toJson (s : Scalar) (known : Scalars) : Json := ((known.get? s).map valueToJson).getD .null

/-- What a sensor reports for a scalar. -/
def load [Sensor S] (sensor : S) (known : Scalars) (s : Scalar) : Scalars :=
  known.set s (Sensor.read sensor s.key)

/-- Pushes a property and stores it if the sensor takes it. -/
def push [Sensor S] (s : Scalar) (p : Property) : Step Scalars S H := fun known c =>
  match c.push p s.failure with
  | (.ok (), c) =>
    if known.get? s == some p then ⟨known, c, .ok ()⟩ else ⟨known.insert s p, c.raise, .ok ()⟩
  | (.error e, c) => ⟨known, c, .error e⟩

/-- Applies the scalar if the candidate has a number for it. -/
def apply [Sensor S] (candidate : Object) (s : Scalar) : Step Scalars S H :=
  Step.whenSome (Object.double? candidate s.field) fun x => s.push (s.property x)

end Scalar

end DeviceConfig
