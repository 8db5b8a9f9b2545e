/-
The codec section: how the input tensor is encoded.
-/
import DeviceConfig.Check
import DeviceConfig.Cycle

namespace DeviceConfig

/-- The codec section. -/
structure Codec where
  format : Option UInt32 := none
  deriving DecidableEq, Inhabited

namespace Codec

variable {S H : Type}

/-- The verdict on a candidate for the section. -/
def check : Check := Check.object [.number "format"] []

/-- Applies a candidate. -/
def apply (candidate : Object) : Step Codec S H :=
  Step.whenSome (Object.word? candidate "format") fun n => Step.store ⟨some n⟩

/-- The document value, without a format as long as none is known. -/
def toJson (s : Codec) : Json := .object (Object.ofOptions [("format", s.format.map .word)])

end Codec

end DeviceConfig
