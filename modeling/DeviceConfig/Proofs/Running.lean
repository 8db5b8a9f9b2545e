/-
Applying a document while the device runs.

The fields that belong to the running stream are left out of the common section, and nothing
else is.  So the document becomes what it would have become in another state of the device if
those fields had not been there.  Only the reply can tell the two apart: it carries the refusal
if that is due and no section has failed, for a failure is written over it.

What is left of the common section cannot fail and does not reach the sensor.  It does the same
to every cycle: it asks for changes of life, and it may make a notification due.
-/
import DeviceConfig.Proofs.Device
import DeviceConfig.Proofs.Objects
import DeviceConfig.Proofs.Steps

namespace DeviceConfig

variable {S H : Type}

/-- The reply after something that may have given notice. -/
def Reply.notify (notice : Bool) (r : Reply) : Reply := { r with raised := r.raised || notice }

/-- The cycle after something that asks for changes of life and may have given notice. -/
def Cycle.advance (ask : Requests → Requests) (notice : Bool) (c : Cycle S H) : Cycle S H :=
  { c with reply := c.reply.notify notice, requests := ask c.requests }

theorem Cycle.advance_id (c : Cycle S H) : c.advance id false = c := by
  simp [advance, Reply.notify]

theorem Cycle.advance_advance (c : Cycle S H) (ask ask' : Requests → Requests)
    (notice notice' : Bool) :
    (c.advance ask notice).advance ask' notice' = c.advance (ask' ∘ ask) (notice || notice') := by
  simp [advance, Reply.notify, Bool.or_assoc]

theorem Cycle.advance_raise (c : Cycle S H) : c.advance id true = c.raise := by
  simp [advance, Reply.notify, raise, Reply.raise]

/-! ### The common section -/

namespace Common

/-- A candidate without the fields that belong to the running stream. -/
def withoutStream (candidate : Object) : Object := Object.eraseAll streamFields candidate

theorem field?_withoutStream {name : String} (h : name ∉ streamFields) (candidate : Object) :
    Object.field? (withoutStream candidate) name = Object.field? candidate name := by
  rw [withoutStream, Object.field?_eraseAll, if_neg h]

theorem field?_withoutStream_of_mem {name : String} (h : name ∈ streamFields)
    (candidate : Object) : Object.field? (withoutStream candidate) name = none := by
  rw [withoutStream, Object.field?_eraseAll, if_pos h]

theorem requestState_advances (candidate : Object) :
    ∃ ask : Requests → Requests, ∀ (a : Common) (c : Cycle S H),
      requestState candidate a c = ⟨a, c.advance ask false, .ok ()⟩ ∧
        requestState (withoutStream candidate) a c = ⟨a, c.advance ask false, .ok ()⟩ := by
  have hword : Object.word? (withoutStream candidate) "process_state" =
      Object.word? candidate "process_state" := by
    simp only [Object.word?, field?_withoutStream (by decide : "process_state" ∉ streamFields)]
  unfold requestState
  rw [hword]
  cases Object.word? candidate "process_state" with
  | none => exact ⟨id, fun a c => by simp [Cycle.advance_id]⟩
  | some w =>
      refine ⟨fun r => { r with processState := some (.requested w) }, fun a c => ?_⟩
      simp [Cycle.advance, Reply.notify]

theorem applyLogLevel_advances (candidate : Object) (a : Common) :
    ∃ (logLevel : UInt32) (ask : Requests → Requests) (notice : Bool), ∀ c : Cycle S H,
      applyLogLevel candidate a c = ⟨{ a with logLevel }, c.advance ask notice, .ok ()⟩ ∧
        applyLogLevel (withoutStream candidate) a c =
          ⟨{ a with logLevel }, c.advance ask notice, .ok ()⟩ := by
  have hword : Object.word? (withoutStream candidate) "log_level" =
      Object.word? candidate "log_level" := by
    simp only [Object.word?, field?_withoutStream (by decide : "log_level" ∉ streamFields)]
  unfold applyLogLevel
  rw [hword]
  cases Object.word? candidate "log_level" with
  | none => exact ⟨a.logLevel, id, false, fun c => by simp [Cycle.advance_id]⟩
  | some w =>
      by_cases hw : w = a.logLevel
      · exact ⟨a.logLevel, id, false, fun c => by simp [hw, Cycle.advance_id]⟩
      · refine ⟨w, fun r => { r with logLevel := some (.ofWord w) }, true, fun c => ?_⟩
        simp only [hw, if_false]
        simp [Cycle.advance, Reply.notify, Cycle.raise, Reply.raise]

/-- Of the parts of the common section, only the inference section is left. -/
theorem applyAdmitted_withoutStream [Sensor S] (candidate : Object) :
    (applyAdmitted (withoutStream candidate) : Step Common S H) =
      applyPart candidate "inference_settings" inference
        (fun new a => { a with inference := new }) Inference.apply := by
  have hword : Object.word? (withoutStream candidate) "number_of_inference_per_message" = none := by
    rw [Object.word?, field?_withoutStream_of_mem (by decide)]
    rfl
  have hobject : ∀ name ∈ streamFields, Object.object? (withoutStream candidate) name = none := by
    intro name hname
    rw [Object.object?, field?_withoutStream_of_mem hname]
    rfl
  have hinference : Object.object? (withoutStream candidate) "inference_settings" =
      Object.object? candidate "inference_settings" := by
    rw [Object.object?, field?_withoutStream (by decide), Object.object?]
  simp only [applyAdmitted, applyInferencePerMessage, applyPart, hword, hinference,
    hobject "pq_settings" (by decide), hobject "port_settings" (by decide),
    hobject "codec_settings" (by decide), Step.all, List.foldr, Step.whenSome_none,
    Step.skip_andThen, Step.andThen_skip]

theorem Inference.apply_advances (candidate : Object) (a : Inference) :
    ∃ (value : Inference) (notice : Bool), ∀ c : Cycle S H,
      Inference.apply candidate a c = ⟨value, c.advance id notice, .ok ()⟩ := by
  unfold Inference.apply
  cases Object.word? candidate "number_of_iterations" with
  | none => exact ⟨a, false, fun c => by rw [Cycle.advance_id]; rfl⟩
  | some n =>
      by_cases h : (a == ⟨n⟩) = true
      · refine ⟨a, false, fun c => ?_⟩
        simp [Step.whenSome, Step.store, h, Cycle.advance_id]
      · refine ⟨⟨n⟩, true, fun c => ?_⟩
        simp [Step.whenSome, Step.store, h, Cycle.advance_raise]

theorem applyAdmitted_advances [Sensor S] (candidate : Object) (a : Common) :
    ∃ (value : Common) (notice : Bool), ∀ c : Cycle S H,
      applyAdmitted (withoutStream candidate) a c = ⟨value, c.advance id notice, .ok ()⟩ := by
  rw [applyAdmitted_withoutStream]
  unfold applyPart
  cases Object.object? candidate "inference_settings" with
  | none => exact ⟨a, false, fun c => by rw [Cycle.advance_id]; rfl⟩
  | some fragment =>
      obtain ⟨value, notice, h⟩ :=
        Inference.apply_advances (S := S) (H := H) fragment a.inference
      refine ⟨{ a with inference := value }, notice, fun c => ?_⟩
      simp [Step.whenSome, Step.on, h]

/-- The reply with the refusal. -/
def refused (r : Reply) : Reply := (r.setDetail refusal).setCode .failedPrecondition

/-- The cycle after the refusal, if the candidate would change what belongs to the stream. -/
def answered (candidate : Object) (a : Common) (c : Cycle S H) : Cycle S H :=
  { c with reply := if a.changesStream candidate then refused c.reply else c.reply }

theorem refuse_of_running {c : Cycle S H} (hc : c.state = .running) (candidate : Object)
    (a : Common) : refuse candidate a c = ⟨a, answered candidate a c, .ok ()⟩ := by
  unfold refuse answered
  by_cases h : a.changesStream candidate = true
  · rw [if_pos ⟨hc, h⟩, if_pos h]
    rfl
  · rw [if_neg fun h' => h h'.2, if_neg h]

theorem refuse_of_not_running {c : Cycle S H} (hc : c.state ≠ .running) (candidate : Object)
    (a : Common) : refuse candidate a c = ⟨a, c, .ok ()⟩ := by
  unfold refuse
  rw [if_neg fun h => hc h.1]

/-- A refusal gives notice itself, so it does not matter whether there was notice before. -/
theorem answered_advance (candidate : Object) (a : Common) (c : Cycle S H)
    (ask : Requests → Requests) (notice : Bool) :
    answered candidate a (c.advance ask notice) = (answered candidate a c).advance ask notice := by
  unfold answered
  split
  · simp [Cycle.advance, Reply.notify, refused, Reply.setCode, Reply.setDetail]
  · rfl

/-- While the device runs, the common section does what it would do to the rest of the candidate
in another state, except that the refusal may be answered. -/
theorem apply_advances [Sensor S] (candidate : Object) (a : Common) :
    ∃ (value : Common) (ask : Requests → Requests) (notice : Bool), ∀ c : Cycle S H,
      (c.state = .running → apply candidate a c =
        ⟨value, (answered candidate a c).advance ask notice, .ok ()⟩) ∧
      (c.state ≠ .running →
        apply (withoutStream candidate) a c = ⟨value, c.advance ask notice, .ok ()⟩) := by
  obtain ⟨ask, hstate⟩ := requestState_advances (S := S) (H := H) candidate
  obtain ⟨logLevel, ask', notice, hlevel⟩ := applyLogLevel_advances (S := S) (H := H) candidate a
  obtain ⟨value, notice', hadmitted⟩ :=
    applyAdmitted_advances (S := S) (H := H) candidate { a with logLevel }
  refine ⟨value, ask' ∘ ask, notice || notice', fun c => ⟨fun hc => ?_, fun hc => ?_⟩⟩
  · have hrefuse := refuse_of_running (c := (c.advance ask false).advance ask' notice) hc candidate
      { a with logLevel }
    have hleft : admitted c.state candidate = withoutStream candidate := if_pos hc
    have hlast := hadmitted (answered candidate { a with logLevel }
      ((c.advance ask false).advance ask' notice))
    rw [← hleft] at hlast
    unfold apply
    rw [Step.all_cons_of_ok (hstate a c).1, Step.all_cons_of_ok (hlevel _).1,
      Step.all_cons_of_ok hrefuse]
    refine Eq.trans hlast ?_
    simp only [answered_advance, Cycle.advance_advance, Bool.false_or]
    rfl
  · have hrefuse := refuse_of_not_running (c := (c.advance ask false).advance ask' notice) hc
      (withoutStream candidate) { a with logLevel }
    have hleft : admitted c.state (withoutStream candidate) = withoutStream candidate := if_neg hc
    have hlast := hadmitted ((c.advance ask false).advance ask' notice)
    rw [← hleft] at hlast
    unfold apply
    rw [Step.all_cons_of_ok (hstate a c).2, Step.all_cons_of_ok (hlevel _).2,
      Step.all_cons_of_ok hrefuse]
    refine Eq.trans hlast ?_
    simp only [Cycle.advance_advance, Bool.false_or]
    rfl

end Common

/-! ### The application's section -/

/-- The application's section does the same in every state of the device and whatever the reply
says, of which it changes the flag at most. -/
theorem Custom.apply_advances [Hook H] (candidate : Object) (a : Custom) (c : Cycle S H) :
    ∃ (value : Custom) (hook : H) (notice : Bool) (outcome : Verdict),
      ∀ (reply : Reply) (state : ProcessState), apply candidate a { c with reply, state } =
        ⟨value, { c with reply := reply.notify notice, state, hook }, outcome⟩ := by
  cases h : unchanged a.settings candidate with
  | true =>
      refine ⟨a, c.hook, false, .ok (), fun reply state => ?_⟩
      rw [apply_of_unchanged h]
      simp [Reply.notify]
  | false =>
      refine ⟨⟨kept c.requestId candidate (verdict candidate c).1⟩, (verdict candidate c).2, true,
        (verdict candidate c).1, fun reply state => ?_⟩
      rw [apply_of_changed h]
      simp [Reply.notify, Reply.raise, verdict]

/-! ### The document -/

namespace Document

/-- A candidate without the fields that belong to the running stream. -/
def withoutStream (candidate : Object) : Object :=
  match Object.object? candidate "common_settings" with
  | some settings =>
    Object.insert "common_settings" (.object (Common.withoutStream settings)) candidate
  | none => candidate

theorem object?_withoutStream_common (candidate : Object) :
    Object.object? (withoutStream candidate) "common_settings" =
      (Object.object? candidate "common_settings").map Common.withoutStream := by
  unfold withoutStream
  cases h : Object.object? candidate "common_settings" with
  | none => exact h
  | some settings =>
      show Object.object? (Object.insert _ _ candidate) _ = _
      rw [Object.object?, Object.field?_insert, if_pos rfl]
      rfl

theorem object?_withoutStream_of_ne {name : String} (hname : name ≠ "common_settings")
    (candidate : Object) :
    Object.object? (withoutStream candidate) name = Object.object? candidate name := by
  unfold withoutStream
  cases Object.object? candidate "common_settings" with
  | none => rfl
  | some settings =>
      show Object.object? (Object.insert _ _ candidate) _ = _
      rw [Object.object?, Object.field?_insert, if_neg hname, Object.object?]

/-- The reply after the refusal, if that is due. -/
def refusing (due : Bool) (r : Reply) : Reply := if due then Common.refused r else r

/-- The common section in a running device, and what is left of it in another state. -/
theorem section?_common [Sensor S] {state : ProcessState} (hstate : state ≠ .running)
    (candidate : Object) (k : Collaborators S H) (d : Document) :
    ∃ (value : Common) (ask : Requests → Requests) (notice : Bool),
      (section? (Object.object? candidate "common_settings") Common.apply (.ok ()) d.common
          (d.cycle .running k)) =
        ⟨value, { d.cycle .running k with
          reply := (refusing (d.refuses .running candidate) d.reply).notify notice
          requests := ask d.requests }, .ok ()⟩ ∧
      (section? (Object.object? (withoutStream candidate) "common_settings") Common.apply (.ok ())
          d.common (d.cycle state k)) =
        ⟨value, { d.cycle state k with
          reply := d.reply.notify notice
          requests := ask d.requests }, .ok ()⟩ := by
  rw [object?_withoutStream_common]
  cases hfound : Object.object? candidate "common_settings" with
  | none =>
      refine ⟨d.common, id, false, ?_, ?_⟩
      · simp [section?, refuses, hfound, refusing, Reply.notify, cycle]
      · simp [section?, Reply.notify, cycle]
  | some settings =>
      obtain ⟨value, ask, notice, h⟩ := Common.apply_advances (S := S) (H := H) settings d.common
      refine ⟨value, ask, notice, ?_, ?_⟩
      · show reporting (Common.apply settings) d.common _ = _
        rw [reporting_eq, (h (d.cycle .running k)).1 rfl]
        simp [heed, Cycle.advance, Common.answered, refuses, hfound, refusing, cycle]
      · show reporting (Common.apply (Common.withoutStream settings)) d.common _ = _
        rw [reporting_eq, (h (d.cycle state k)).2 hstate]
        rfl

/-- The application's section in any state of the device, and whatever the reply says. -/
theorem section?_advances [Hook H] (found : Option Object) (a : Custom) (c : Cycle S H) :
    ∃ (value : Custom) (hook : H) (notice : Bool) (outcome : Verdict),
      ∀ (reply : Reply) (state : ProcessState),
        (section? found Custom.apply (.ok ()) a { c with reply, state }) =
          ⟨value, { c with reply := heed outcome (reply.notify notice), state, hook },
            outcome⟩ := by
  cases found with
  | none =>
      refine ⟨a, c.hook, false, .ok (), fun reply state => ?_⟩
      simp [section?, heed, Reply.notify]
  | some settings =>
      obtain ⟨value, hook, notice, outcome, h⟩ := Custom.apply_advances settings a c
      refine ⟨value, hook, notice, outcome, fun reply state => ?_⟩
      show reporting (Custom.apply settings) a _ = _
      rw [reporting_eq, h]

theorem heed_refusing (due : Bool) (outcome : Verdict) (r : Reply) (notice notice' : Bool) :
    heed outcome (((refusing due r).notify notice).notify notice') =
      refusing (due && outcome.isOk) (heed outcome ((r.notify notice).notify notice')) := by
  cases due with
  | false => rfl
  | true => cases outcome with
    | ok _ =>
        simp [heed, refusing, Common.refused, Reply.notify, Reply.setCode, Reply.setDetail,
          Except.isOk, Except.toBool]
    | error e => rfl

/-- While the device runs, the document becomes what it would become in another state without
the fields of the stream, except for the refusal. -/
theorem apply_of_running [Sensor S] [Hook H] {state : ProcessState} (hstate : state ≠ .running)
    (candidate : Object) (k : Collaborators S H) (d : Document) :
    let u := d.apply .running candidate k
    let v := d.apply state (withoutStream candidate) k
    u.outcome = v.outcome ∧ u.collaborators = v.collaborators ∧ v.collaborators.sensor = k.sensor ∧
      u.document = { v.document with
        reply := refusing (d.refuses .running candidate && v.outcome.isOk) v.document.reply } := by
  intro u v
  obtain ⟨common, ask, notice, hrunning, hother⟩ := section?_common hstate candidate k d
  obtain ⟨custom, hook, notice', outcome, h⟩ := section?_advances (S := S)
    (Object.object? candidate "custom_settings") d.custom
    { d.cycle .running k with requests := ask d.requests }
  have hrunningCustom : section? (Object.object? candidate "custom_settings") Custom.apply (.ok ())
      d.custom { d.cycle .running k with
        reply := (refusing (d.refuses .running candidate) d.reply).notify notice
        requests := ask d.requests } = _ :=
    h ((refusing (d.refuses .running candidate) d.reply).notify notice) .running
  have hotherCustom : section? (Object.object? candidate "custom_settings") Custom.apply (.ok ())
      d.custom { d.cycle state k with
        reply := d.reply.notify notice
        requests := ask d.requests } = _ := h (d.reply.notify notice) state
  have hname : "custom_settings" ≠ "common_settings" := by decide
  simp only [u, v, apply, object?_withoutStream_of_ne hname, hrunning, hother, hrunningCustom,
    hotherCustom]
  refine ⟨trivial, trivial, rfl, ?_⟩
  rw [heed_refusing]

/-- The outcome is that of the attempt at the application's section, if there is one. -/
theorem apply_outcome_of_custom [Sensor S] [Hook H] {state : ProcessState} {candidate : Object}
    {k : Collaborators S H} {d : Document} {q : Progress Custom S H}
    (hq : d.customAttempt candidate (d.cycle state k) = some q) :
    (d.apply state candidate k).outcome = q.outcome := by
  have hcommon := section?_eq (Object.object? candidate "common_settings") Common.apply (.ok ())
    d.common (d.cycle state k)
  obtain ⟨-, houtcome, -⟩ := section?_custom (Object.object? candidate "custom_settings")
    (((d.commonAttempt candidate (d.cycle state k)).map (·.outcome)).getD (.ok ())) d.custom
    (((d.commonAttempt candidate (d.cycle state k)).map (·.cycle)).getD (d.cycle state k))
    (heed (((d.commonAttempt candidate (d.cycle state k)).map (·.outcome)).getD (.ok ()))
      (((d.commonAttempt candidate (d.cycle state k)).map (·.cycle)).getD (d.cycle state k)).reply)
  unfold customAttempt at hq
  rw [hq] at houtcome
  simp only [apply]
  rw [hcommon]
  exact houtcome

theorem commonAttempt_of_running [Sensor S] {candidate : Object} {d : Document} {c : Cycle S H}
    (hc : c.state = .running) {p : Progress Common S H}
    (hp : d.commonAttempt candidate c = some p) : p.outcome = .ok () := by
  obtain ⟨settings, -, rfl⟩ := Option.map_eq_some_iff.mp hp
  obtain ⟨value, ask, notice, h⟩ := Common.apply_advances (S := S) (H := H) settings d.common
  rw [(h c).1 hc]

/-- **While the device runs, an application is that of the rest of the candidate.**  The document,
what is asked of the device, the calls of the application and the outcome are what they would be
in another state if the fields of the stream had not been there, and the sensor hears of neither.
The reply differs only if no section has failed and the refusal is due, and then in what the
refusal writes. -/
theorem apply_running [Sensor S] [Hook H] {state : ProcessState} (hstate : state ≠ .running)
    (candidate : Object) (k : Collaborators S H) (d : Document) :
    let u := d.apply .running candidate k
    let v := d.apply state (withoutStream candidate) k
    let heard := (d.apply .running candidate k.recorded).collaborators
    let heardOther := (d.apply state (withoutStream candidate) k.recorded).collaborators
    u.outcome = v.outcome ∧ u.collaborators = v.collaborators ∧
      heard.sensor.writes = [] ∧ heardOther.sensor.writes = [] ∧
      heard.hook.calls = heardOther.hook.calls ∧
      (u.document = v.document ∨
        d.refuses .running candidate = true ∧ u.outcome = .ok () ∧
          (∀ p, d.commonAttempt candidate (d.cycle .running k) = some p → p.outcome = .ok ()) ∧
          (∀ p, d.customAttempt candidate (d.cycle .running k) = some p → p.outcome = .ok ()) ∧
          u.document = { v.document with reply := Common.refused v.document.reply }) := by
  intro u v heard heardOther
  obtain ⟨houtcome, hleft, -, hdocument⟩ := apply_of_running hstate candidate k d
  obtain ⟨-, hheard, hsensor, -⟩ := apply_of_running hstate candidate k.recorded d
  have hsame : heard = heardOther := hheard
  have hwrites : heardOther.sensor.writes = [] := congrArg Recorder.writes hsensor
  refine ⟨houtcome, hleft, hsame ▸ hwrites, hwrites, by rw [hsame], ?_⟩
  cases hdue : d.refuses .running candidate && v.outcome.isOk with
  | false =>
      refine .inl (hdocument.trans ?_)
      rw [show (_ && _) = false from hdue]
      rfl
  | true =>
      obtain ⟨hrefuses, hisOk⟩ := Bool.and_eq_true_iff.mp hdue
      have hok : u.outcome = .ok () := by
        refine houtcome.trans ?_
        cases hv : v.outcome with
        | ok _ => rfl
        | error e => rw [hv] at hisOk; cases hisOk
      refine .inr ⟨hrefuses, hok, fun p hp => commonAttempt_of_running rfl hp,
        fun p hp => (apply_outcome_of_custom hp).symm.trans hok, hdocument.trans ?_⟩
      rw [show (_ && _) = true from hdue]
      rfl

/-- A log level and a digital zoom, with settings for the application besides. -/
def zoomCandidate : Object :=
  .ofList [("common_settings", .ofMembers [("log_level", .word 5),
      ("pq_settings", .ofMembers [("digital_zoom", .word 2)])]),
    ("custom_settings", .ofMembers [("gain", .word 1)])]

/-- A running device stores the log level, refuses the zoom and hands over the settings. -/
theorem apply_running_refused :
    let u := Document.apply .running zoomCandidate obliging {}
    let v := Document.apply .idle (withoutStream zoomCandidate) obliging {}
    let heard := (Document.apply .running zoomCandidate obliging.recorded {}).collaborators
    ProcessState.idle ≠ .running ∧ heard.sensor.writes = [] ∧ heard.hook.calls.length = 1 ∧
      u.document.common.logLevel = 5 ∧
      u.document = { v.document with reply := Common.refused v.document.reply } := by
  have hstate : ProcessState.idle ≠ .running := by decide
  obtain ⟨-, -, hwrites, -, -, hdocument⟩ := apply_running hstate zoomCandidate obliging {}
  refine ⟨hstate, hwrites, by decide +kernel, by decide +kernel, ?_⟩
  rcases hdocument with hsame | ⟨-, -, -, -, hrefused⟩
  · exact absurd (congrArg (fun d : Document => d.reply.code) hsame) (by decide +kernel)
  · exact hrefused

end Document

end DeviceConfig
