/-
A simulated sensor.

It holds what was last accepted for each key, remembers every accepted write, and can be
told to refuse a key.
-/
import DeviceConfig.Sensor.Basic
import DeviceConfig.Slots

namespace DeviceConfig

/-- The state of a simulated sensor. -/
structure Simulator where
  stored : Slots Key Key.Value := .empty
  /-- The keys that are refused. -/
  refused : Slots Key fun _ => Cause := .empty
  /-- Accepted writes, oldest first. -/
  history : List Property := []

namespace Simulator

instance : Inhabited Simulator := ⟨{}⟩

/-- What the sensor does not take, whatever it has been told. -/
def check (p : Property) : Except Rejection Unit :=
  match p with
  | ⟨.frameRate, rate⟩ =>
    if rate.denom = 0 then .error ⟨.outOfRange, "frame rate denominator must be non-zero"⟩
    else .ok ()
  | ⟨.imageCrop, crop⟩ =>
    if crop.width = 0 ∨ crop.height = 0 then .error ⟨.outOfRange, "crop area must be non-empty"⟩
    else .ok ()
  | ⟨.manualWhiteBalancePreset, preset⟩ =>
    if WhiteBalancePreset.temperatures.contains preset.kelvin then .ok ()
    else .error ⟨.invalidArgument, "unsupported colour temperature"⟩
  | _ => .ok ()

/-- The verdict on a write. -/
def verdict (s : Simulator) (p : Property) : Except Rejection Unit :=
  match s.refused.get? p.key with
  | some cause => .error ⟨cause, s!"{p.key.label} rejected"⟩
  | none => check p

/-- The state after an accepted write. -/
def accept (s : Simulator) (p : Property) : Simulator :=
  { s with stored := s.stored.insert p.key p.value, history := s.history ++ [p] }

/-- Writes a property, which changes nothing unless it is accepted. -/
def write (s : Simulator) (p : Property) : Except Rejection Unit × Simulator :=
  match s.verdict p with
  | .ok () => (.ok (), s.accept p)
  | .error r => (.error r, s)

/-- What is stored for a key. -/
def read (s : Simulator) (k : Key) : Option Property := (s.stored.get? k).map (⟨k, ·⟩)

instance : Sensor Simulator := ⟨write, read⟩

/-- Refuses every later write of a key. -/
def refuse (s : Simulator) (k : Key) (cause : Cause) : Simulator :=
  { s with refused := s.refused.insert k cause }

/-- Takes writes of a key again. -/
def allow (s : Simulator) (k : Key) : Simulator := { s with refused := s.refused.erase k }

/-- What the sensor holds after power-on. -/
def powerOnProperties : List Property :=
  [⟨.cameraImageSize, { width := 2028, height := 1520, scalingPolicy := 1 }⟩,
    ⟨.cameraImageFlip, {}⟩,
    ⟨.digitalZoom, (1 : Single)⟩,
    ⟨.exposureMode, (0 : UInt32)⟩,
    ⟨.autoExposure, { maxTime := 20000, minTime := 33, maxGain := 24, convergenceSpeed := 3 }⟩,
    ⟨.manualExposure, { time := 10000, gain := 1 }⟩,
    ⟨.frameRate, { num := 30, denom := 1 }⟩,
    ⟨.imageCrop, { width := 4056, height := 3040 }⟩,
    ⟨.evCompensation, (0 : Single)⟩,
    ⟨.antiFlickerMode, (1 : UInt32)⟩,
    ⟨.whiteBalanceMode, (0 : UInt32)⟩,
    ⟨.imageRotation, (0 : UInt32)⟩,
    ⟨.inputDataType, { metadata := true }⟩,
    ⟨.autoExposureMetering, {}⟩,
    ⟨.autoWhiteBalance, { convergenceSpeed := 3 }⟩,
    ⟨.manualWhiteBalancePreset, {}⟩]

/-- The sensor after power-on. -/
def powerOn : Simulator :=
  { stored := powerOnProperties.foldl (fun stored p => stored.insert p.key p.value) .empty }

end Simulator

end DeviceConfig
