/-
The picture section.

It holds the scalars, the structured properties and the register writes.  They are applied
in this order: scalars, register writes, structured properties.
-/
import DeviceConfig.Picture.Register
import DeviceConfig.Picture.Scalar
import DeviceConfig.Picture.Structured

namespace DeviceConfig

/-- The picture section. -/
structure Picture where
  scalars : Scalars := .empty
  structured : Structures := .empty
  registers : List RegisterWrite.Fitting := []
  deriving Inhabited

namespace Picture

variable {S H : Type}

/-- The rules on the fields of the section. -/
def rules : List Rule :=
  Scalar.all.flatMap Scalar.rules ++ Structured.all.map (fun s => .kind s.field .object) ++
    [.kind "register_access" .array]

/-- The check of one structured property. -/
def checkStructured (p : Picture) (s : Structured) : Check :=
  s.description.check (p.structured.get? s)

/-- The verdict on a candidate for the section. -/
def check (p : Picture) : Check := fun candidate => do
  Check.object rules (Structured.all.map fun s => (s.field, p.checkStructured s)) candidate
  match Object.array? candidate "register_access" with
  | some entries => RegisterWrite.check entries
  | none => .ok ()

/-- The section with everything that a sensor reports. -/
def load [Sensor S] (sensor : S) (p : Picture) : Picture :=
  { p with
    scalars := Scalar.all.foldl (Scalar.load sensor) p.scalars
    structured := Structured.all.foldl (fun known s => known.set s (s.load sensor)) p.structured }

theorem get?_load_scalars [Sensor S] (sensor : S) (p : Picture) (s : Scalar) :
    (p.load sensor).scalars.get? s = Sensor.read sensor s.key :=
  Slots.get?_foldl_set (fun s : Scalar => Sensor.read sensor s.key) Scalar.all
    (by cases s <;> decide) _

theorem get?_load_structured [Sensor S] (sensor : S) (p : Picture) (s : Structured) :
    (p.load sensor).structured.get? s = s.load sensor :=
  Slots.get?_foldl_set (fun s : Structured => s.load sensor) Structured.all
    (by cases s <;> decide) _

/-- Applies the scalars of a candidate. -/
def applyScalars [Sensor S] (candidate : Object) : Step Picture S H :=
  Step.on scalars (fun known p => { p with scalars := known })
    (Step.all (Scalar.all.map (Scalar.apply candidate)))

/-- Applies the register writes of a candidate. -/
def applyRegisters [Sensor S] (candidate : Object) : Step Picture S H :=
  Step.whenSome (Object.array? candidate "register_access") fun entries =>
    Step.on registers (fun taken p => { p with registers := taken }) (RegisterWrite.apply entries)

/-- Applies one structured property of a candidate. -/
def applyStructured [Sensor S] (candidate : Object) (s : Structured) : Step Picture S H :=
  Step.whenSome (Object.object? candidate s.field) fun fragment =>
    Step.on (fun p => p.structured.get? s)
      (fun known p => { p with structured := p.structured.set s known }) (s.apply fragment)

/-- Applies a candidate. -/
def apply [Sensor S] (candidate : Object) : Step Picture S H :=
  Step.all (applyScalars candidate :: applyRegisters candidate ::
    Structured.all.map (applyStructured candidate))

/-- The document value of the section. -/
def toJson (p : Picture) : Json :=
  .ofMembers <|
    Scalar.all.map (fun s => (s.field, s.toJson p.scalars)) ++
      ("register_access", RegisterWrite.listToJson p.registers) ::
      Structured.all.map fun s => (s.field, s.description.toJson (p.structured.get? s))

end Picture

end DeviceConfig
