/-
The application's side of its settings.

A hook is anything whose state takes settings, as text on a topic, and answers whether the
application accepts them.
-/
import DeviceConfig.Response.Error

namespace DeviceConfig

/-- A state that takes settings. -/
class Hook (H : Type) where
  /-- Hands settings to the application. -/
  configure : H → (topic settings : String) → Verdict × H

/-- An application that accepts everything and remembers nothing. -/
structure Indifferent where
  deriving Inhabited

instance : Hook Indifferent := ⟨fun h _ _ => (.ok (), h)⟩

/-- A call of a hook and its outcome. -/
structure Call where
  topic : String
  settings : String
  outcome : Verdict

/-- A hook together with every call made to it, oldest first. -/
structure HookRecorder (H : Type) where
  hook : H
  calls : List Call := []

namespace HookRecorder

/-- The same hook with nothing recorded. -/
def clear {H : Type} (r : HookRecorder H) : HookRecorder H := { r with calls := [] }

instance {H : Type} [Hook H] : Hook (HookRecorder H) where
  configure r topic settings :=
    let (outcome, hook) := Hook.configure r.hook topic settings
    (outcome, { hook, calls := r.calls ++ [⟨topic, settings, outcome⟩] })

end HookRecorder

end DeviceConfig
