/-
Sensor properties.

A key names one property of the sensor and fixes what kind of value it has, so a property
is a key with a value of its kind.
-/
import DeviceConfig.Binary.Single
import DeviceConfig.Sensor.Register

namespace DeviceConfig

/-! ### Values -/

/-- The size of the picture. -/
structure ImageSize where
  width : UInt32 := 0
  height : UInt32 := 0
  scalingPolicy : UInt32 := 0
  deriving BEq, ReflBEq, LawfulBEq, Inhabited

/-- Whether the picture is mirrored. -/
structure ImageFlip where
  horizontal : UInt32 := 0
  vertical : UInt32 := 0
  deriving BEq, ReflBEq, LawfulBEq, Inhabited

structure AutoExposure where
  maxTime : UInt32 := 0
  minTime : UInt32 := 0
  maxGain : Single := 0
  convergenceSpeed : UInt32 := 0
  deriving BEq, Inhabited

theorem AutoExposure.beq_of_maxGain {a : AutoExposure} {x : Single}
    (h : (a.maxGain == x) = true) : (a == { a with maxGain := x }) = true := by
  show (a.maxTime == a.maxTime && (a.minTime == a.minTime && (a.maxGain == x &&
    a.convergenceSpeed == a.convergenceSpeed))) = true
  simp [h]

structure ManualExposure where
  time : UInt32 := 0
  gain : Single := 0
  deriving BEq, Inhabited

theorem ManualExposure.beq_of_gain {a : ManualExposure} {x : Single}
    (h : (a.gain == x) = true) : (a == { a with gain := x }) = true := by
  show (a.time == a.time && a.gain == x) = true
  simp [h]

/-- Frames in a second, as a ratio. -/
structure FrameRate where
  num : UInt32 := 0
  denom : UInt32 := 0
  deriving BEq, ReflBEq, LawfulBEq, Inhabited

/-- The part of the sensor that is read. -/
structure ImageCrop where
  left : UInt32 := 0
  top : UInt32 := 0
  width : UInt32 := 0
  height : UInt32 := 0
  deriving BEq, ReflBEq, LawfulBEq, Inhabited

/-- Where the exposure is metered: everywhere in mode 0, in a window otherwise. -/
structure Metering where
  mode : UInt32 := 0
  top : UInt32 := 0
  left : UInt32 := 0
  bottom : UInt32 := 0
  right : UInt32 := 0
  deriving BEq, ReflBEq, LawfulBEq, Inhabited

structure AutoWhiteBalance where
  convergenceSpeed : UInt32 := 0
  deriving BEq, ReflBEq, LawfulBEq, Inhabited

/-- A fixed white balance, as a colour temperature in kelvin. -/
structure WhiteBalancePreset where
  kelvin : UInt32 := 3200
  deriving BEq, ReflBEq, LawfulBEq, Inhabited

/-- The colour temperatures that a preset can have. -/
def WhiteBalancePreset.temperatures : List UInt32 := [3200, 4300, 5600, 6500]

/-- The channels that the sensor delivers. -/
structure Channels where
  metadata : Bool := false
  inputTensor : Bool := false
  deriving BEq, ReflBEq, LawfulBEq, DecidableEq, Inhabited

/-! ### Keys -/

/-- The properties of a sensor. -/
inductive Key where
  | cameraImageSize
  | cameraImageFlip
  | digitalZoom
  | exposureMode
  | autoExposure
  | manualExposure
  | frameRate
  | imageCrop
  | evCompensation
  | antiFlickerMode
  | whiteBalanceMode
  | imageRotation
  | inputDataType
  | autoExposureMetering
  | autoWhiteBalance
  | manualWhiteBalancePreset
  | registerAccess
  deriving DecidableEq, Repr

namespace Key

/-- Every key. -/
def all : List Key :=
  [cameraImageSize, cameraImageFlip, digitalZoom, exposureMode, autoExposure, manualExposure,
    frameRate, imageCrop, evCompensation, antiFlickerMode, whiteBalanceMode, imageRotation,
    inputDataType, autoExposureMetering, autoWhiteBalance, manualWhiteBalancePreset,
    registerAccess]

/-- The name of a key where properties are exchanged. -/
def name : Key → String
  | cameraImageSize => "camera_image_size"
  | cameraImageFlip => "camera_image_flip"
  | digitalZoom => "digital_zoom"
  | exposureMode => "exposure_mode"
  | autoExposure => "auto_exposure"
  | manualExposure => "manual_exposure"
  | frameRate => "frame_rate"
  | imageCrop => "image_crop"
  | evCompensation => "ev_compensation"
  | antiFlickerMode => "anti_flicker_mode"
  | whiteBalanceMode => "white_balance_mode"
  | imageRotation => "image_rotation"
  | inputDataType => "input_data_type"
  | autoExposureMetering => "auto_exposure_metering"
  | autoWhiteBalance => "auto_white_balance"
  | manualWhiteBalancePreset => "manual_white_balance_preset"
  | registerAccess => "register_access"

/-- The key with a given name. -/
def ofName? (name : String) : Option Key := all.find? (·.name == name)

/-- The name of a key in messages. -/
def label : Key → String
  | cameraImageSize => "CameraImageSize"
  | cameraImageFlip => "CameraImageFlip"
  | digitalZoom => "DigitalZoom"
  | exposureMode => "ExposureMode"
  | autoExposure => "AutoExposure"
  | manualExposure => "ManualExposure"
  | frameRate => "FrameRate"
  | imageCrop => "ImageCrop"
  | evCompensation => "EvCompensation"
  | antiFlickerMode => "AntiFlickerMode"
  | whiteBalanceMode => "WhiteBalanceMode"
  | imageRotation => "ImageRotation"
  | inputDataType => "InputDataType"
  | autoExposureMetering => "AutoExposureMetering"
  | autoWhiteBalance => "AutoWhiteBalance"
  | manualWhiteBalancePreset => "ManualWhiteBalancePreset"
  | registerAccess => "RegisterAccess"

/-- What the value of a property is. -/
abbrev Value : Key → Type
  | cameraImageSize => ImageSize
  | cameraImageFlip => ImageFlip
  | digitalZoom | evCompensation => Single
  | exposureMode | antiFlickerMode | whiteBalanceMode | imageRotation => UInt32
  | autoExposure => AutoExposure
  | manualExposure => ManualExposure
  | frameRate => FrameRate
  | imageCrop => ImageCrop
  | inputDataType => Channels
  | autoExposureMetering => Metering
  | autoWhiteBalance => AutoWhiteBalance
  | manualWhiteBalancePreset => WhiteBalancePreset
  | registerAccess => RegisterWrite

/-- Values are equal field by field; in single-precision fields both zeros are equal. -/
instance (k : Key) : BEq k.Value :=
  match k with
  | cameraImageSize => inferInstanceAs (BEq ImageSize)
  | cameraImageFlip => inferInstanceAs (BEq ImageFlip)
  | digitalZoom => inferInstanceAs (BEq Single)
  | exposureMode => inferInstanceAs (BEq UInt32)
  | autoExposure => inferInstanceAs (BEq AutoExposure)
  | manualExposure => inferInstanceAs (BEq ManualExposure)
  | frameRate => inferInstanceAs (BEq FrameRate)
  | imageCrop => inferInstanceAs (BEq ImageCrop)
  | evCompensation => inferInstanceAs (BEq Single)
  | antiFlickerMode => inferInstanceAs (BEq UInt32)
  | whiteBalanceMode => inferInstanceAs (BEq UInt32)
  | imageRotation => inferInstanceAs (BEq UInt32)
  | inputDataType => inferInstanceAs (BEq Channels)
  | autoExposureMetering => inferInstanceAs (BEq Metering)
  | autoWhiteBalance => inferInstanceAs (BEq AutoWhiteBalance)
  | manualWhiteBalancePreset => inferInstanceAs (BEq WhiteBalancePreset)
  | registerAccess => inferInstanceAs (BEq RegisterWrite)

end Key

/-- A value of one of the sensor's properties. -/
structure Property where
  key : Key
  value : key.Value

namespace Property

/-- The value, if the property is the one asked for. -/
def as? (p : Property) (k : Key) : Option k.Value :=
  if h : p.key = k then some (h ▸ p.value) else none

@[simp] theorem as?_self (p : Property) : p.as? p.key = some p.value := by simp [as?]

/-- The same property with equal values. -/
def same (p q : Property) : Bool := (q.as? p.key).any (p.value == ·)

instance : BEq Property := ⟨same⟩

/-- Values of one property are compared as they are. -/
theorem mk_beq_mk (k : Key) (v w : k.Value) : ((⟨k, v⟩ : Property) == ⟨k, w⟩) = (v == w) := by
  show ((⟨k, w⟩ : Property).as? k).any (v == ·) = (v == w)
  simp [as?]

end Property

end DeviceConfig
