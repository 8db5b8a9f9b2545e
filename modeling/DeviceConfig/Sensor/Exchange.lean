/-
Properties as JSON values.

A property is written as its key and its value.  Words have to be unsigned integers of
their width, so reading refuses what would have to be cut down.
-/
import DeviceConfig.Json.Object
import DeviceConfig.Sensor.Property

namespace DeviceConfig

namespace Number

/-- A number that is an unsigned 64-bit word. -/
def long? : Number → Option UInt64
  | .integer n _ => if 0 ≤ n then some (UInt64.ofNat n.toNat) else none
  | .double _ => none

/-- A number that is an unsigned 32-bit word. -/
def word? (n : Number) : Option UInt32 :=
  n.long?.bind fun w => if w.toNat < UInt32.size then some (UInt32.ofNat w.toNat) else none

/-- The nearest single. -/
def toSingle : Number → Single
  | .integer n _ => Single.ofInt n
  | .double x => Single.ofDouble x

end Number

namespace Object

/-- The field as an exact unsigned word. -/
def exactWord? (o : Object) (key : String) : Option UInt32 :=
  (field? o key).bind fun v => v.number?.bind Number.word?

/-- The field as an exact unsigned 64-bit word. -/
def exactLong? (o : Object) (key : String) : Option UInt64 :=
  (field? o key).bind fun v => v.number?.bind Number.long?

/-- The field as a single. -/
def single? (o : Object) (key : String) : Option Single :=
  (field? o key).bind fun v => v.number?.map Number.toSingle

end Object

namespace Key

/-- The value of a property as JSON. -/
def valueToJson : (k : Key) → k.Value → Json
  | cameraImageSize, v => .ofMembers
    [("width", .word v.width), ("height", .word v.height),
      ("scaling_policy", .word v.scalingPolicy)]
  | cameraImageFlip, v => .ofMembers
    [("flip_horizontal", .word v.horizontal), ("flip_vertical", .word v.vertical)]
  | digitalZoom, v => .single v
  | evCompensation, v => .single v
  | exposureMode, v => .word v
  | antiFlickerMode, v => .word v
  | whiteBalanceMode, v => .word v
  | imageRotation, v => .word v
  | autoExposure, v => .ofMembers
    [("max_exposure_time", .word v.maxTime), ("min_exposure_time", .word v.minTime),
      ("max_gain", .single v.maxGain), ("convergence_speed", .word v.convergenceSpeed)]
  | manualExposure, v => .ofMembers [("exposure_time", .word v.time), ("gain", .single v.gain)]
  | frameRate, v => .ofMembers [("num", .word v.num), ("denom", .word v.denom)]
  | imageCrop, v => .ofMembers
    [("left", .word v.left), ("top", .word v.top), ("width", .word v.width),
      ("height", .word v.height)]
  | inputDataType, v => .ofMembers
    [("metadata", .bool v.metadata), ("input_tensor", .bool v.inputTensor)]
  | autoExposureMetering, v => .ofMembers
    [("mode", .word v.mode), ("top", .word v.top), ("left", .word v.left),
      ("bottom", .word v.bottom), ("right", .word v.right)]
  | autoWhiteBalance, v => .ofMembers [("convergence_speed", .word v.convergenceSpeed)]
  | manualWhiteBalancePreset, v => .ofMembers [("color_temperature", .word v.kelvin)]
  | registerAccess, v => .ofMembers
    [("bit_length", .string v.width.name), ("id", .word v.id),
      ("address", .number (.ofLong v.address)), ("data", .number (.ofLong v.data))]

/-- The value of a property that some members spell. -/
def valueOfObject? (o : Object) : (k : Key) → Option k.Value
  | cameraImageSize => do
    some { width := ← o.exactWord? "width", height := ← o.exactWord? "height",
           scalingPolicy := ← o.exactWord? "scaling_policy" }
  | cameraImageFlip => do
    some { horizontal := ← o.exactWord? "flip_horizontal",
           vertical := ← o.exactWord? "flip_vertical" }
  | autoExposure => do
    some { maxTime := ← o.exactWord? "max_exposure_time",
           minTime := ← o.exactWord? "min_exposure_time", maxGain := ← o.single? "max_gain",
           convergenceSpeed := ← o.exactWord? "convergence_speed" }
  | manualExposure => do
    some { time := ← o.exactWord? "exposure_time", gain := ← o.single? "gain" }
  | frameRate => do some { num := ← o.exactWord? "num", denom := ← o.exactWord? "denom" }
  | imageCrop => do
    some { left := ← o.exactWord? "left", top := ← o.exactWord? "top",
           width := ← o.exactWord? "width", height := ← o.exactWord? "height" }
  | inputDataType => do
    some { metadata := ← o.bool? "metadata", inputTensor := ← o.bool? "input_tensor" }
  | autoExposureMetering => do
    some { mode := ← o.exactWord? "mode", top := ← o.exactWord? "top",
           left := ← o.exactWord? "left", bottom := ← o.exactWord? "bottom",
           right := ← o.exactWord? "right" }
  | autoWhiteBalance => do some { convergenceSpeed := ← o.exactWord? "convergence_speed" }
  | manualWhiteBalancePreset => do some { kelvin := ← o.exactWord? "color_temperature" }
  | registerAccess => do
    some { width := ← (o.string? "bit_length").bind Width.ofName?, id := ← o.exactWord? "id",
           address := ← o.exactLong? "address", data := ← o.exactLong? "data" }
  | digitalZoom | evCompensation | exposureMode | antiFlickerMode | whiteBalanceMode
  | imageRotation => none

/-- The value of a property that a JSON value spells. -/
def valueOfJson? (v : Json) : (k : Key) → Option k.Value
  | digitalZoom => v.number?.map Number.toSingle
  | evCompensation => v.number?.map Number.toSingle
  | exposureMode => v.number?.bind Number.word?
  | antiFlickerMode => v.number?.bind Number.word?
  | whiteBalanceMode => v.number?.bind Number.word?
  | imageRotation => v.number?.bind Number.word?
  | key => v.object?.bind fun o => valueOfObject? o key

end Key

namespace Property

def toJson (p : Property) : Json :=
  .ofMembers [("key", .string p.key.name), ("value", p.key.valueToJson p.value)]

/-- The property that a JSON value spells. -/
def ofJson? (v : Json) : Option Property := do
  let o ← v.object?
  let key ← (o.string? "key").bind Key.ofName?
  let value ← key.valueOfJson? (← o.field? "value")
  some ⟨key, value⟩

end Property

end DeviceConfig
