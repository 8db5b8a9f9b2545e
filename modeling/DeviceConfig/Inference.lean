/-
The inference section: how many iterations the inference loop makes.
-/
import DeviceConfig.Check
import DeviceConfig.Cycle

namespace DeviceConfig

/-- The inference section. -/
structure Inference where
  iterations : UInt32 := 0
  deriving DecidableEq, Inhabited

namespace Inference

variable {S H : Type}

/-- The verdict on a candidate for the section. -/
def check : Check := Check.object (Rule.natural "number_of_iterations") []

/-- Applies a candidate. -/
def apply (candidate : Object) : Step Inference S H :=
  Step.whenSome (Object.word? candidate "number_of_iterations") fun n => Step.store ⟨n⟩

def toJson (s : Inference) : Json := .ofMembers [("number_of_iterations", .word s.iterations)]

end Inference

end DeviceConfig
