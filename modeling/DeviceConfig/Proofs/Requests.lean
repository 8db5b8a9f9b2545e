/-
What an update asks of the device.

Only two fields of a document ask for something, both in the common section: the state and the
log level.  They are asked for before anything else of it is applied, whatever becomes of the
rest, and nothing that is applied later adds to what is asked or takes it back.  Of the two, only
the log level is kept; the state that is shown is for the device to write.

What is asked for has passed the check, so it is a state in which a device works, and a log level
that there is.
-/
import DeviceConfig.Device
import DeviceConfig.Proofs.Checks
import DeviceConfig.Proofs.Document
import DeviceConfig.Proofs.Steps

namespace DeviceConfig

variable {S H : Type}

/-! ### The common section -/

namespace Common

/-- The log level that a candidate puts in the place of the one there is. -/
def newLogLevel? (candidate : Object) (a : Common) : Option UInt32 :=
  (Object.word? candidate "log_level").filter (· ≠ a.logLevel)

/-- What is asked of the device once a candidate has been applied. -/
def asked (candidate : Object) (a : Common) (before : Requests) : Requests where
  processState :=
    ((Object.word? candidate "process_state").map ProcessState.requested).or before.processState
  logLevel := ((a.newLogLevel? candidate).map LogLevel.ofWord).or before.logLevel

/-- The state that a candidate asks for replaces one that was asked for before. -/
theorem requestState_asks (candidate : Object) (a : Common) (c : Cycle S H) :
    requestState candidate a c =
      ⟨a, { c with requests := ⟨((Object.word? candidate "process_state").map
        ProcessState.requested).or c.requests.processState, c.requests.logLevel⟩ }, .ok ()⟩ := by
  unfold requestState
  cases Object.word? candidate "process_state" <;> rfl

/-- A log level is asked for if it is new, and then the section keeps it too. -/
theorem applyLogLevel_asks (candidate : Object) (a : Common) (c : Cycle S H) :
    ∃ reply, applyLogLevel candidate a c =
      ⟨{ a with logLevel := (a.newLogLevel? candidate).getD a.logLevel },
        { c with
          reply
          requests := ⟨c.requests.processState,
            ((a.newLogLevel? candidate).map LogLevel.ofWord).or c.requests.logLevel⟩ },
        .ok ()⟩ := by
  unfold applyLogLevel newLogLevel?
  cases Object.word? candidate "log_level" with
  | none => exact ⟨c.reply, rfl⟩
  | some w =>
      by_cases hw : w = a.logLevel
      · refine ⟨c.reply, ?_⟩
        simp only [hw, if_true, Option.filter, ne_eq, not_true_eq_false, decide_false]
        rfl
      · refine ⟨c.reply.raise, ?_⟩
        simp only [hw, if_false, Option.filter, ne_eq, not_false_eq_true, decide_true]
        rfl

theorem refuse_eq (candidate : Object) (a : Common) (c : Cycle S H) :
    ∃ reply, refuse candidate a c = ⟨a, { c with reply }, .ok ()⟩ := by
  unfold refuse
  split
  · exact ⟨_, rfl⟩
  · exact ⟨c.reply, rfl⟩

/-- **A candidate asks for what it asks for, and then its parts are applied.**  All that is before
them is settled without them: the section has its log level, and nothing has failed. -/
theorem apply_eq [Sensor S] (candidate : Object) (a : Common) (c : Cycle S H) :
    ∃ reply, apply candidate a c =
      applyAdmitted (admitted c.state candidate)
        { a with logLevel := (a.newLogLevel? candidate).getD a.logLevel }
        { c with reply, requests := a.asked candidate c.requests } := by
  let state := ((Object.word? candidate "process_state").map ProcessState.requested).or
    c.requests.processState
  obtain ⟨reply, hlevel⟩ := applyLogLevel_asks candidate a
    { c with requests := ⟨state, c.requests.logLevel⟩ }
  obtain ⟨reply', hrefuse⟩ := refuse_eq candidate
    { a with logLevel := (a.newLogLevel? candidate).getD a.logLevel }
    { c with reply, requests := a.asked candidate c.requests }
  refine ⟨reply', ?_⟩
  unfold apply
  rw [Step.all_cons_of_ok (requestState_asks candidate a c), Step.all_cons_of_ok hlevel]
  exact Step.all_cons_of_ok hrefuse _

/-- The parts of the section have no say in the state and the log level. -/
theorem applyAdmitted_state [Sensor S] (candidate : Object) (a : Common) (c : Cycle S H) :
    (applyAdmitted candidate a c).value.state = a.state ∧
      (applyAdmitted candidate a c).value.logLevel = a.logLevel := by
  let R (a : Common) (_ : Cycle S H) (b : Common) (_ : Cycle S H) : Prop :=
    b.state = a.state ∧ b.logLevel = a.logLevel
  have hR : Step.Course R :=
    ⟨fun _ _ => ⟨rfl, rfl⟩, fun h h' => ⟨h'.1.trans h.1, h'.2.trans h.2⟩⟩
  have happly : Step.Leads R (applyAdmitted candidate) := by
    refine hR.all fun f hf => ?_
    simp only [List.mem_cons, List.not_mem_nil, or_false] at hf
    rcases hf with rfl | rfl | rfl | rfl | rfl
    all_goals exact hR.whenSome fun _ _ _ _ => ⟨rfl, rfl⟩
  exact happly a c

/-- What the common section asks for, and what it keeps of that. -/
theorem apply_asks [Sensor S] (candidate : Object) (a : Common) (c : Cycle S H) :
    (apply candidate a c).cycle.requests = a.asked candidate c.requests ∧
      (apply candidate a c).value.state = a.state ∧
      (apply candidate a c).value.logLevel = (a.newLogLevel? candidate).getD a.logLevel := by
  obtain ⟨reply, happly⟩ := apply_eq candidate a c
  rw [happly]
  exact ⟨(applyAdmitted_within Cycle.Quiet.frame _ _ _).requests, applyAdmitted_state _ _ _⟩

end Common

/-! ### The document -/

namespace Document

theorem requests_section?_custom [Hook H] (found : Option Object) (before : Verdict) (a : Custom)
    (c : Cycle S H) : (section? found Custom.apply before a c).cycle.requests = c.requests := by
  cases found with
  | none => rfl
  | some fragment =>
      show (reporting (Custom.apply fragment) a c).cycle.requests = c.requests
      rw [reporting_eq]
      exact (Custom.apply_sensor_requests fragment a c).2

/-- **An application asks for what its common section asks for.**  The section keeps the state
that it shows, and of the log level what it asks for. -/
theorem apply_asks [Sensor S] [Hook H] (state : ProcessState) (candidate : Object)
    (k : Collaborators S H) (d : Document) :
    let u := d.apply state candidate k
    match Object.object? candidate "common_settings" with
    | some settings =>
      u.document.requests = d.common.asked settings d.requests ∧
        u.document.common.state = d.common.state ∧
        u.document.common.logLevel =
          (d.common.newLogLevel? settings).getD d.common.logLevel
    | none => u.document.requests = d.requests ∧ u.document.common = d.common := by
  intro u
  let p := section? (Object.object? candidate "common_settings") Common.apply (.ok ()) d.common
    (d.cycle state k)
  have hrequests : u.document.requests = p.cycle.requests := requests_section?_custom _ _ _ _
  have hvalue : u.document.common = p.value := rfl
  rw [hrequests, hvalue, show p = _ from section?_eq _ _ _ _ _]
  cases Object.object? candidate "common_settings" with
  | none => exact ⟨rfl, rfl⟩
  | some settings => exact Common.apply_asks settings d.common (d.cycle state k)

end Document

end DeviceConfig
