/-
Picture properties that are made of fields.

The last value that the sensor took is remembered.  A candidate is merged over it, the
result is pushed as a whole, and it is stored if the sensor takes it.
-/
import DeviceConfig.Cycle
import DeviceConfig.Picture.Field
import DeviceConfig.Slots

namespace DeviceConfig

/-- The picture properties that are made of fields, in the order in which they are applied. -/
inductive Structured where
  | cameraImageSize
  | cameraImageFlip
  | autoExposure
  | manualExposure
  | frameRate
  | imageCropping
  | autoExposureMetering
  | autoWhiteBalance
  | manualWhiteBalancePreset
  deriving DecidableEq, Repr

/-! ### How the values appear -/

def ImageSize.description : Description ImageSize where
  failure := "Camera image size property failed to be set."
  fields :=
    [.natural "width" (·.width) fun w a => { a with width := w },
      .natural "height" (·.height) fun w a => { a with height := w },
      .range "scaling_policy" 1 2 (·.scalingPolicy) fun w a => { a with scalingPolicy := w }]
  initial := {}

def ImageFlip.description : Description ImageFlip where
  failure := "Camera image flip property failed to be set."
  fields :=
    [.range "flip_horizontal" 0 1 (·.horizontal) fun w a => { a with horizontal := w },
      .range "flip_vertical" 0 1 (·.vertical) fun w a => { a with vertical := w }]
  initial := {}

def AutoExposure.description : Description AutoExposure where
  failure := "Auto exposure property failed to be set."
  fields :=
    [.natural "max_exposure_time" (·.maxTime) fun w a => { a with maxTime := w },
      .natural "min_exposure_time" (·.minTime) fun w a => { a with minTime := w },
      .single "max_gain" (·.maxGain) fun x a => { a with maxGain := x },
      .natural "convergence_speed" (·.convergenceSpeed) fun w a =>
        { a with convergenceSpeed := w }]
  initial := {}
  checkValue a :=
    if a.minTime ≤ a.maxTime then .ok ()
    else .error (.invalid
      "Parameter min_exposure_time can not be greater than max_exposure_time")

def ManualExposure.description : Description ManualExposure where
  failure := "Manual exposure property failed to be set."
  fields :=
    [.natural "exposure_time" (·.time) fun w a => { a with time := w },
      .single "gain" (·.gain) fun x a => { a with gain := x }]
  initial := {}

namespace FrameRate

/-- A part of the ratio is whole if it is a number. -/
def checkWhole (name label : String) : Check := fun candidate =>
  match Object.double? candidate name with
  | some x =>
    if x.isWhole then .ok () else .error (.invalid s!"{label} property has to be an integer")
  | none => .ok ()

def description : Description FrameRate where
  failure := "Frame rate property failed to be set."
  fields :=
    [.natural "num" (·.num) fun w a => { a with num := w },
      .natural "denom" (·.denom) fun w a => { a with denom := w }]
  initial := {}
  checkCandidate candidate := do
    checkWhole "num" "Num" candidate
    checkWhole "denom" "Denom" candidate

end FrameRate

def ImageCrop.description : Description ImageCrop where
  failure := "Image cropping property failed to be set."
  fields :=
    [.natural "left" (·.left) fun w a => { a with left := w },
      .natural "top" (·.top) fun w a => { a with top := w },
      .natural "width" (·.width) fun w a => { a with width := w },
      .natural "height" (·.height) fun w a => { a with height := w }]
  initial := {}

/-- The window is not empty, unless it does not matter. -/
def Metering.checkWindow (a : Metering) : Verdict :=
  if a.mode = 0 then .ok ()
  else if a.bottom ≤ a.top then .error (.invalid "top not top < bottom")
  else if a.right ≤ a.left then .error (.invalid "left not left < right")
  else .ok ()

def Metering.description : Description Metering where
  failure := "Auto Exposure Metering property failed to be set."
  fields :=
    [.range "metering_mode" 0 1 (·.mode) fun w a => { a with mode := w },
      .natural "top" (·.top) fun w a => { a with top := w },
      .natural "left" (·.left) fun w a => { a with left := w },
      .natural "bottom" (·.bottom) fun w a => { a with bottom := w },
      .natural "right" (·.right) fun w a => { a with right := w }]
  initial := {}
  checkValue := Metering.checkWindow

def AutoWhiteBalance.description : Description AutoWhiteBalance where
  failure := "Auto White Balance property failed to be set."
  fields :=
    [.natural "convergence_speed" (·.convergenceSpeed) fun w a =>
      { a with convergenceSpeed := w }]
  initial := {}

namespace WhiteBalancePreset

/-- The temperature of a preset; that of the first for a number without one. -/
def ofIndex (index : UInt32) : WhiteBalancePreset := ⟨temperatures[index.toNat]?.getD 3200⟩

/-- The number of the preset; zero for a temperature that none has. -/
def index (a : WhiteBalancePreset) : UInt32 :=
  UInt32.ofNat ((temperatures.idxOf? a.kelvin).getD 0)

def description : Description WhiteBalancePreset where
  failure := "Manual White Balance property failed to be set."
  fields := [.range "color_temperature" 0 3 index fun w _ => ofIndex w]
  initial := {}

end WhiteBalancePreset

namespace Structured

variable {S H : Type}

/-- Every structured property, in the order in which they are applied. -/
def all : List Structured :=
  [cameraImageSize, cameraImageFlip, autoExposure, manualExposure, frameRate, imageCropping,
    autoExposureMetering, autoWhiteBalance, manualWhiteBalancePreset]

/-- The name of a property in a document. -/
def field : Structured → String
  | cameraImageSize => "camera_image_size"
  | cameraImageFlip => "camera_image_flip"
  | autoExposure => "auto_exposure"
  | manualExposure => "manual_exposure"
  | frameRate => "frame_rate"
  | imageCropping => "image_cropping"
  | autoExposureMetering => "auto_exposure_metering"
  | autoWhiteBalance => "auto_white_balance"
  | manualWhiteBalancePreset => "manual_white_balance_preset"

/-- The property with a given name in a document. -/
def ofField? (field : String) : Option Structured := all.find? (·.field == field)

/-- The sensor property. -/
abbrev key : Structured → Key
  | cameraImageSize => .cameraImageSize
  | cameraImageFlip => .cameraImageFlip
  | autoExposure => .autoExposure
  | manualExposure => .manualExposure
  | frameRate => .frameRate
  | imageCropping => .imageCrop
  | autoExposureMetering => .autoExposureMetering
  | autoWhiteBalance => .autoWhiteBalance
  | manualWhiteBalancePreset => .manualWhiteBalancePreset

/-- What the value of a property is. -/
abbrev Value (s : Structured) : Type := s.key.Value

/-- How the values of a property appear. -/
def description : (s : Structured) → Description s.Value
  | cameraImageSize => ImageSize.description
  | cameraImageFlip => ImageFlip.description
  | autoExposure => AutoExposure.description
  | manualExposure => ManualExposure.description
  | frameRate => FrameRate.description
  | imageCropping => ImageCrop.description
  | autoExposureMetering => Metering.description
  | autoWhiteBalance => AutoWhiteBalance.description
  | manualWhiteBalancePreset => WhiteBalancePreset.description

/-- The sensor property with a given value. -/
def property (s : Structured) (v : s.Value) : Property := ⟨s.key, v⟩

/-- What a sensor reports, if it is the property that was asked for. -/
def load [Sensor S] (s : Structured) (sensor : S) : Option s.Value :=
  (Sensor.read sensor s.key).bind fun p => p.as? s.key

/-- Pushes a value and stores it if the sensor takes it. -/
def push [Sensor S] (s : Structured) (v : s.Value) : Step (Option s.Value) S H := fun known c =>
  match c.push (s.property v) s.description.failure with
  | (.ok (), c) =>
    if known == some v then ⟨known, c, .ok ()⟩ else ⟨some v, c.raise, .ok ()⟩
  | (.error e, c) => ⟨known, c, .error e⟩

/-- Applies a candidate merged over what is known. -/
def apply [Sensor S] (candidate : Object) (s : Structured) : Step (Option s.Value) S H :=
  fun known => s.push (s.description.merged candidate known) known

end Structured

/-- What is known of each structured property. -/
abbrev Structures := Slots Structured Structured.Value

end DeviceConfig
