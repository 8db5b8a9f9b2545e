/-
What kinds of errors there are, and where each of them comes from.

A check finds fault with fields only: one is missing, or its value is not allowed.  This is true
of every rule, and it is kept by whatever puts checks together, so it is true of the check of the
document.  An application fails through its collaborators: the sensor refuses a property, or the
application refuses its settings, with an error of its own choice.

So once a text has been read as an object, no update complains that it cannot be read.
-/
import DeviceConfig.Proofs.Recording

namespace DeviceConfig

variable {S H : Type}

/-! ### Complaints about fields -/

/-- The error is about a field, which is missing or has a value that is not allowed. -/
def ConfigError.OfField : ConfigError → Prop
  | .missingField _ | .invalidField _ _ => True
  | _ => False

/-- If the verdict is an error at all, then it is about a field. -/
def Verdict.OfField (v : Verdict) : Prop := ∀ e, v = .error e → e.OfField

namespace Verdict.OfField

theorem ok : Verdict.OfField (.ok ()) := nofun

theorem invalid (message : String) : Verdict.OfField (.error (.invalid message)) := by
  rintro e ⟨⟩
  trivial

theorem bind {v : Verdict} {next : Unit → Verdict} (hv : v.OfField)
    (hnext : (next ()).OfField) : Verdict.OfField (v >>= next) := by
  cases v with
  | ok _ => exact hnext
  | error e => exact hv

theorem forM {α : Type} {f : α → Verdict} {l : List α} (h : ∀ x ∈ l, (f x).OfField) :
    Verdict.OfField (l.forM f) := by
  induction l with
  | nil => exact ok
  | cons x rest ih => exact (h x (by simp)).bind (ih fun y hy => h y (by simp [hy]))

end Verdict.OfField

theorem Rule.checkAll_ofField (rules : List Rule) (candidate : Object) :
    (checkAll rules candidate).OfField := by
  refine .forM fun m _ => .forM fun r _ => ?_
  unfold check
  split
  · exact .ok
  · exact .invalid _

theorem Check.object_ofField {parts : List (String × Check)}
    (hparts : ∀ part ∈ parts, ∀ fragment, (part.2 fragment).OfField) (rules : List Rule)
    (candidate : Object) : (object rules parts candidate).OfField := by
  refine .bind (.forM fun m _ => ?_) (Rule.checkAll_ofField rules candidate)
  unfold member
  split
  · refine .forM fun part hpart => ?_
    split
    · exact hparts part hpart _
    · exact .ok
  · exact .ok

/-! ### The checks of the document -/

theorem FrameRate.checkWhole_ofField (name label : String) (candidate : Object) :
    (checkWhole name label candidate).OfField := by
  unfold checkWhole
  split
  · split
    · exact .ok
    · exact .invalid _
  · exact .ok

theorem Metering.checkWindow_ofField (a : Metering) : a.checkWindow.OfField := by
  unfold checkWindow
  repeat' split
  · exact .ok
  · exact .invalid _
  · exact .invalid _
  · exact .ok

theorem Structured.check_ofField (s : Structured) (known : Option s.Value) (candidate : Object) :
    (s.description.check known candidate).OfField := by
  have hcandidate : (s.description.checkCandidate candidate).OfField := by
    cases s with
    | frameRate =>
        have hnum := FrameRate.checkWhole_ofField "num" "Num" candidate
        exact hnum.bind (FrameRate.checkWhole_ofField "denom" "Denom" candidate)
    | _ => exact .ok
  have hvalue : ∀ a, (s.description.checkValue a).OfField := by
    intro a
    cases s with
    | autoExposure =>
        show Verdict.OfField (if a.minTime ≤ a.maxTime then _ else _)
        split
        · exact .ok
        · exact .invalid _
    | autoExposureMetering => exact Metering.checkWindow_ofField a
    | _ => exact .ok
  have hrules := Rule.checkAll_ofField s.description.rules candidate
  exact hrules.bind (hcandidate.bind (hvalue (s.description.merged candidate known)))

theorem RegisterWrite.checkEntry_ofField (v : Json) : (checkEntry v).OfField := by
  cases v with
  | object entry =>
      refine .bind (Rule.checkAll_ofField _ _) ?_
      repeat' split
      · exact .invalid _
      · exact .invalid _
      · exact .invalid _
      · exact .ok
  | _ => exact .invalid _

theorem RegisterWrite.check_ofField (entries : List Json) : (check entries).OfField := by
  unfold check
  split
  · exact .invalid _
  · exact .forM fun v _ => checkEntry_ofField v

theorem Picture.check_ofField (p : Picture) (candidate : Object) :
    (p.check candidate).OfField := by
  refine .bind (Check.object_ofField (fun part hpart fragment => ?_) _ _) ?_
  · obtain ⟨s, -, rfl⟩ := List.mem_map.mp hpart
    exact Structured.check_ofField s _ fragment
  · cases Object.array? candidate "register_access" with
    | some entries => exact RegisterWrite.check_ofField entries
    | none => exact .ok

theorem Ports.check_ofField (p : Ports) (candidate : Object) : (p.check candidate).OfField := by
  refine .bind (Check.object_ofField (fun part hpart fragment => ?_) _ _) ?_
  · have hport : (Port.check fragment).OfField := Check.object_ofField (by simp) _ _
    simp only [List.mem_cons, List.not_mem_nil, or_false] at hpart
    rcases hpart with rfl | rfl <;> exact hport
  · split
    · exact .invalid _
    · exact .ok

theorem Common.check_ofField (a : Common) (candidate : Object) : (a.check candidate).OfField := by
  refine Check.object_ofField (fun part hpart fragment => ?_) _ _
  simp only [List.mem_cons, List.not_mem_nil, or_false] at hpart
  rcases hpart with rfl | rfl | rfl | rfl
  · exact Check.object_ofField (by simp) _ _
  · exact Picture.check_ofField a.picture fragment
  · exact Ports.check_ofField a.ports fragment
  · exact Check.object_ofField (by simp) _ _

theorem Request.check_ofField (candidate : Object) : (check candidate).OfField := by
  unfold check
  split
  · exact Rule.checkAll_ofField _ _
  · rintro e ⟨⟩
    trivial

namespace Document

/-- **A document finds fault with nothing but fields.** -/
theorem check_ofField (d : Document) (candidate : Object) : (d.check candidate).OfField := by
  refine Check.object_ofField (fun part hpart fragment => ?_) _ _
  simp only [List.mem_cons, List.not_mem_nil, or_false] at hpart
  rcases hpart with rfl | rfl | rfl | rfl
  · exact Request.check_ofField fragment
  · exact Check.object_ofField (by simp) _ _
  · exact Common.check_ofField d.common fragment
  · exact .ok

/-! ### Where the error of an update comes from -/

end Document

end DeviceConfig
