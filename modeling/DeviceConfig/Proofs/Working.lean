/-
A device that nothing from outside takes out of its working states.

Three places hold the state of a device: the state it is in, the one it plans to enter, and the
one that the document shows.  They are written by different functions, and between two actions
they agree.  That needs two things of an update.  It does not write the state that is shown, and
the state that it asks for is one in which a device works, since a number that means another does
not pass the check.  A failure takes the device to idle, which is such a state too.

Only destroying the device on purpose ends this.
-/
import DeviceConfig.Proofs.Lifecycle
import DeviceConfig.Proofs.Requests

namespace DeviceConfig

variable {S H K : Type}

/-! ### What passes the check -/

namespace Common

variable {a : Common} {candidate : Object}

/-- A candidate that passes asks for no state but a working one. -/
theorem requested_of_check (h : a.check candidate = .ok ()) {w : UInt32}
    (hw : Object.word? candidate "process_state" = some w) :
    ∃ s : WorkingState, ProcessState.requested w = s.toState := by
  have hrules := (Check.of_object h).1
  have hlow : 1 ≤ w.toNat :=
    Rule.le_toNat_word? hrules (by decide) (by simp [rules, Rule.range]) hw
  have hhigh : w.toNat ≤ 2 :=
    Rule.toNat_word?_le hrules (by decide) (by simp [rules, Rule.range]) hw
  have hcases : w = 1 ∨ w = 2 := by
    simp only [← UInt32.toNat_inj, UInt32.reduceToNat]
    omega
  rcases hcases with rfl | rfl
  · exact ⟨.idle, rfl⟩
  · exact ⟨.running, rfl⟩

/-- The log level that a candidate that passes leaves is one that there is. -/
theorem logLevel_of_check (h : a.check candidate = .ok ()) (ha : a.logLevel.toNat ≤ 5) :
    ((a.newLogLevel? candidate).getD a.logLevel).toNat ≤ 5 := by
  cases hnew : a.newLogLevel? candidate with
  | none => exact ha
  | some w =>
      have hw : Object.word? candidate "log_level" = some w := (Option.filter_eq_some_iff.mp hnew).1
      exact Rule.toNat_word?_le (Check.of_object h).1 (by decide) (by simp [rules, Rule.range]) hw

end Common

/-- The state that a document shows is not for an update to write. -/
theorem Document.update_state [Sensor S] [Hook H] (state : ProcessState) (text : String)
    (k : Collaborators S H) (d : Document) :
    (d.update state text k).document.common.state = d.common.state := by
  rcases d.rejects_or_passes text with hrejects | ⟨candidate, htext, hverify⟩
  · obtain ⟨request, reply, e, hupdate, -⟩ := update_of_rejects hrejects state k
    rw [hupdate]
  · rw [update_of_passed htext hverify]
    have hasks := apply_asks state candidate k (d.taken candidate)
    cases hsettings : Object.object? candidate "common_settings" with
    | none =>
        rw [hsettings] at hasks
        exact congrArg Common.state hasks.2
    | some settings =>
        rw [hsettings] at hasks
        exact hasks.2.1

/-! ### Devices at work -/

namespace Device

/-- The device is in a state in which it works and plans no other, the document shows that state
and a log level that there is, and nothing is left of what an update has asked for. -/
structure Working (d : Device S H) : Prop where
  settled : d.Settled
  shown : d.current = d.document.common.state.toState
  level : d.document.common.logLevel.toNat ≤ 5
  taken : d.document.requests = {}

namespace Working

variable {d : Device S H}

theorem onReply (h : d.Working) (f : Reply → Reply) : (d.onReply f).Working :=
  ⟨h.settled, h.shown, h.level, h.taken⟩

theorem withPending (h : d.Working) (pending : Option String) : { d with pending }.Working :=
  ⟨h.settled, h.shown, h.level, h.taken⟩

/-- A device that works is not about to be destroyed. -/
theorem next_ne (h : d.Working) : d.next ≠ .destroying := by
  rw [show d.next = d.current from h.settled, h.shown]
  cases d.document.common.state <;> nofun

theorem enter (hnext : d.next ≠ .destroying) (hlevel : d.document.common.logLevel.toNat ≤ 5)
    (htaken : d.document.requests = {}) (s : WorkingState) : (d.enter s.toState).Working where
  settled := settled_enter hnext s.toState
  shown := by cases s <;> rfl
  level := hlevel
  taken := htaken

/-- A device that works can be moved to every working state. -/
theorem move (h : d.Working) (s : WorkingState) : (d.plan s.toState).transition.Working := by
  have hplan : d.plan s.toState = { d with next := s.toState } := if_neg h.next_ne
  rw [hplan]
  unfold transition
  by_cases hsame : s.toState = d.current
  · simp only [if_pos hsame]
    exact ⟨hsame, h.shown, h.level, h.taken⟩
  · simp only [if_neg hsame]
    have hnext : s.toState ≠ .destroying := by cases s <;> nofun
    exact enter (d := { d with next := s.toState }) hnext h.level h.taken s

/-- **An update leaves a device at work, and asks for no state but a working one.** -/
theorem update [Sensor S] [Hook H] (h : d.Working) (text : String) :
    (d.update text).2.2.Working ∧
      ∀ s, (d.update text).2.1.processState = some s → ∃ w : WorkingState, s = w.toState := by
  rcases d.document.rejects_or_passes text with hrejects | ⟨candidate, htext, hverify⟩
  · obtain ⟨request, reply, e, hupdate, -⟩ :=
      Document.update_of_rejects hrejects d.current d.collaborators
    simp only [Device.update, hupdate, h.taken]
    exact ⟨⟨h.settled, h.shown, h.level, rfl⟩, fun _ hs => by cases hs⟩
  · have hpassed := Document.update_of_passed htext hverify d.current d.collaborators
    have hasks := Document.apply_asks d.current candidate d.collaborators
      (d.document.taken candidate)
    simp only [Device.update, hpassed]
    cases hsettings : Object.object? candidate "common_settings" with
    | none =>
        rw [hsettings] at hasks
        obtain ⟨hrequests, hcommon⟩ := hasks
        refine ⟨⟨h.settled, ?_, ?_, rfl⟩, fun s hs => ?_⟩
        · rw [hcommon]
          exact h.shown
        · rw [hcommon]
          exact h.level
        · rw [hrequests, show (d.document.taken candidate).requests = {} from h.taken] at hs
          cases hs
    | some settings =>
        rw [hsettings] at hasks
        obtain ⟨hrequests, hstate, hlevel⟩ := hasks
        have hcheck := Document.common_passes hverify hsettings
        refine ⟨⟨h.settled, ?_, ?_, rfl⟩, fun s hs => ?_⟩
        · rw [hstate]
          exact h.shown
        · rw [hlevel]
          exact Common.logLevel_of_check hcheck h.level
        · rw [hrequests, show (d.document.taken candidate).requests = {} from h.taken] at hs
          simp only [Common.asked, Option.or_none, Option.map_eq_some_iff] at hs
          obtain ⟨w, hw, rfl⟩ := hs
          exact Common.requested_of_check hcheck hw

end Working

end Device

/-! ### What the document shows -/

/-- What a document value shows as the state of the device. -/
def Json.shownState? (v : Json) : Option Json := do
  let root ← v.object?
  let settings ← Object.object? root "common_settings"
  Object.field? settings "process_state"

theorem Document.shownState?_toJson (d : Document) :
    d.toJson.shownState? = some (.word d.common.state.toWord) := by
  have hsettings : Object.field? (Object.ofList
      [("req_info", d.request.toJson), ("res_info", d.reply.toJson),
        ("common_settings", d.common.toJson), ("custom_settings", d.custom.toJson)])
      "common_settings" = some d.common.toJson :=
    Object.field?_ofList_of_mem
      (show ["req_info", "res_info", "common_settings", "custom_settings"].Nodup by decide)
      (by simp)
  have hstate : ∀ members, d.common.toJson = .object members →
      Object.field? members "process_state" = some (.word d.common.state.toWord) := by
    intro members hmembers
    obtain rfl := Json.object.inj hmembers
    exact Object.field?_ofOptions (show ["process_state", "log_level",
      "number_of_inference_per_message", "inference_settings", "pq_settings", "port_settings",
      "codec_settings"].Nodup by decide) (by simp)
  simp only [Json.shownState?, toJson, Json.ofMembers, Json.object?, Option.bind_eq_bind,
    Option.bind_some, Object.object?, hsettings]
  exact hstate _ rfl

/-! ### Runs -/

namespace Lifecycle

theorem launch_working [Sensor S] (initial : WorkingState) (sensor : S) (hook : H) (sink : K)
    (topic : String) (logFilter : LogFilter) :
    (launch initial.toState sensor hook sink topic logFilter).device.Working :=
  Device.Working.enter (show ProcessState.creating ≠ .destroying from nofun)
    (show LogLevel.warn.toWord.toNat ≤ 5 by decide) rfl initial

/-- Every action but the one that destroys the device leaves it at work. -/
theorem act_working [Sensor S] [Hook H] [Sink K] {l : Lifecycle S H K} (hl : l.device.Working)
    {a : Action} (ha : a ≠ .shutdown) : (l.act a).device.Working := by
  cases a with
  | configure text =>
      obtain ⟨pending, henqueue⟩ := enqueue_eq text l
      show (l.enqueue text).2.device.Working
      rw [henqueue]
      exact hl.withPending pending
  | process =>
      show l.process.2.device.Working
      cases hpending : l.device.pending with
      | none =>
          rw [process_of_none hpending]
          exact hl
      | some text =>
          rw [process_of_some hpending]
          obtain ⟨hupdate, hasked⟩ := (hl.withPending none).update text
          have happlied : (l.applied text).device.Working := by
            refine applied_keeps (Q := fun s => ∃ w : WorkingState, s = w.toState)
              ?_ (fun d hd => hd.onReply _) ⟨.idle, rfl⟩ hasked hupdate
            rintro d _ ⟨w, rfl⟩ hd
            exact hd.move w
          exact dispatch_keeps (fun d hd => hd.onReply _) happlied
  | dispatch => exact dispatch_keeps (fun d hd => hd.onReply _) hl
  | transition =>
      show l.device.transition.Working
      rw [Device.transition_of_settled hl.settled]
      exact hl
  | shutdown => exact absurd rfl ha

theorem run_working [Sensor S] [Hook H] [Sink K] (actions : List Action) :
    ∀ {l : Lifecycle S H K}, (∀ a ∈ actions, a ≠ .shutdown) → l.device.Working →
      (run actions l).device.Working := by
  induction actions with
  | nil => intro l _ hl; exact hl
  | cons a rest ih =>
      intro l hactions hl
      exact ih (fun b hb => hactions b (by simp [hb])) (act_working hl (hactions a (by simp)))

/-- What is accepted in an action is the document as it is after it. -/
theorem serialize_of_accepted [Sensor S] [Hook H] [Sink K] {l : Lifecycle S H (SinkRecorder K)}
    (hl : l.device.Settled) {a : Action} {s : Serialized}
    (haccepted : (l.act a).sink.accepted = l.sink.accepted ++ [s]) :
    (l.act a).device.document.serialize = .ok s := by
  have hnone : (l.act a).sink.accepted ≠ l.sink.accepted := by
    rw [haccepted]
    simp
  cases act_effect hl a with
  | still document accepted => exact absurd accepted hnone
  | due raised accepted => exact absurd accepted hnone
  | told s' document accepted =>
      have hsame : s' = s := by
        rw [accepted] at haccepted
        exact List.singleton_inj.mp (List.append_cancel_left haccepted)
      rw [← hsame]
      exact document

/-- **Nothing from outside takes a device out of its working states.**  Whatever configurations a
started device is given, and whatever the sensor, the application and the sink do with them, the
device is idle or running, it plans nothing else, and the document shows the state that it is in.
So no document that is accepted claims another state. -/
theorem run_stays_working [Sensor S] [Hook H] [Sink K] (initial : WorkingState) (sensor : S)
    (hook : H) (sink : K) (topic : String) (logFilter : LogFilter) {actions : List Action}
    (hactions : ∀ a ∈ actions, a ≠ .shutdown) :
    let l : Lifecycle S H (SinkRecorder K) :=
      run actions (launch initial.toState sensor hook ⟨sink, []⟩ topic logFilter)
    l.unrecorded = run actions (launch initial.toState sensor hook sink topic logFilter) ∧
      (l.device.current = .idle ∨ l.device.current = .running) ∧
      l.device.next = l.device.current ∧
      l.device.document.common.state.toWord = l.device.current.toWord ∧
      l.device.document.toJson.shownState? = some (.word l.device.current.toWord) ∧
      l.device.document.common.logLevel.toNat ≤ 5 ∧
      ∀ a s, a ≠ .shutdown → (l.act a).sink.accepted = l.sink.accepted ++ [s] →
        (l.act a).device.document.serialize = .ok s ∧
          (l.act a).device.document.toJson.shownState? =
            some (.word (l.act a).device.current.toWord) := by
  intro l
  have hl : l.device.Working :=
    run_working actions hactions (launch_working initial sensor hook _ topic logFilter)
  have hshows : ∀ {d : Device S H}, d.Working →
      d.document.toJson.shownState? = some (.word d.current.toWord) := by
    intro d hd
    rw [Document.shownState?_toJson, hd.shown]
    rfl
  refine ⟨unrecorded_run actions _, ?_, hl.settled, ?_, hshows hl, hl.level, ?_⟩
  · rw [hl.shown]
    cases l.device.document.common.state with
    | idle => exact .inl rfl
    | running => exact .inr rfl
  · rw [hl.shown]
    rfl
  · intro a s ha haccepted
    exact ⟨serialize_of_accepted hl.settled haccepted, hshows (act_working hl ha)⟩

/-- A request for the state `running` and for all that the log can tell. -/
def runningRequest : String :=
  (Json.ofMembers [("req_info", .ofMembers [("req_id", .string "1")]),
    ("common_settings", .ofMembers [("process_state", .word 2), ("log_level", .word 5)])]).text

/-- A device that has been asked to run does so, and says so. -/
theorem run_stays_working_running :
    let l : Lifecycle Simulator Indifferent (SinkRecorder Outage) :=
      run [.configure runningRequest, .process]
        (launch WorkingState.idle.toState .powerOn {} ⟨⟨0⟩, []⟩ "state" .detached)
    (∀ a ∈ [Action.configure runningRequest, .process], a ≠ .shutdown) ∧
      l.device.current = .running ∧ l.device.next = l.device.current ∧
      l.device.document.toJson.shownState? = some (.word l.device.current.toWord) ∧
      l.device.document.common.logLevel = 5 := by
  have hactions : ∀ a ∈ [Action.configure runningRequest, .process], a ≠ .shutdown := by simp
  have h := run_stays_working .idle Simulator.powerOn Indifferent.mk (Outage.mk 0) "state"
    .detached hactions
  exact ⟨hactions, by decide +kernel, h.2.2.1, h.2.2.2.2.1, by decide +kernel⟩

end Lifecycle

end DeviceConfig
