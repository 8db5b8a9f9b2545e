/-
What an update answers.

The reply to a request is written in several places: its id when the request is taken, an
error when the candidate does not pass, the refusal of the common section, and the error of
each section that fails.  Two facts hold through all of them.  The reply carries the id of
the request, and what it says is decided by a fixed order: the last section to fail counts
most, and the refusal only counts when none has failed.

Nothing is left of the reply to an earlier request.  The id is written before the verdict, and
writing it raises the flag, so once a candidate is there every field of the old reply is gone.
-/
import DeviceConfig.Document
import DeviceConfig.Proofs.Sections
import DeviceConfig.Sensor.Simulator

namespace DeviceConfig

namespace Document

variable {α S H : Type}

/-! ### Reading the text -/

/-- A text that is not an object is answered with an error and changes nothing. -/
theorem update_of_not_object [Sensor S] [Hook H] {text : String}
    (htext : Object.ofText? text = none) (state : ProcessState) (k : Collaborators S H)
    (d : Document) : ∃ e, d.update state text k = ⟨d, k, .error e⟩ := by
  unfold update
  cases hjson : Json.ofText? text with
  | none => exact ⟨_, rfl⟩
  | some v =>
      have hv : v.object? = none := by simpa [Object.ofText?, hjson] using htext
      simp only [hv]
      exact ⟨_, rfl⟩

theorem update_of_object [Sensor S] [Hook H] {text : String} {candidate : Object}
    (htext : Object.ofText? text = some candidate) (state : ProcessState)
    (k : Collaborators S H) (d : Document) :
    d.update state text k = d.updateWith state candidate k := by
  obtain ⟨v, hjson, hv⟩ := Option.bind_eq_some_iff.mp htext
  simp only [update, hjson, hv]

/-! ### Taking the request -/

/-- The id that a candidate gives the request. -/
def idOf? (candidate : Object) : Option String :=
  (Object.object? candidate "req_info").bind fun info => Object.string? info "req_id"

/-- The id that a document has once it has taken the request of a candidate. -/
def idAfter (candidate : Object) (d : Document) : String := (idOf? candidate).getD d.request.id

/-- The reply that says which request it answers, and nothing else yet. -/
def greeting (id : String) : Reply := { resId := id, raised := true }

/-- The document of a request that has been taken and neither rejected nor applied yet. -/
def taken (candidate : Object) (d : Document) : Document :=
  { d with request := ⟨d.idAfter candidate⟩, reply := greeting (d.idAfter candidate) }

/-- Once the request is taken, nothing is left of the reply that there was. -/
theorem correlate_reset (candidate : Object) (d : Document) (r : Reply) :
    correlate candidate { d with reply := r.reset } = d.taken candidate := by
  unfold correlate taken idAfter idOf?
  cases Object.object? candidate "req_info" <;> rfl

theorem verify_reset (candidate : Object) (d : Document) (r : Reply) :
    verify candidate { d with reply := r.reset } =
      ((verify candidate d).1, d.taken candidate) := by
  rw [← correlate_reset candidate d r]
  rfl

theorem updateWith_of_rejected [Sensor S] [Hook H] {candidate : Object} {d : Document}
    {e : ConfigError} (hverify : (d.verify candidate).1 = .error e) (state : ProcessState)
    (k : Collaborators S H) :
    d.updateWith state candidate k =
      ⟨{ d.taken candidate with reply := (greeting (d.idAfter candidate)).recordError e },
        k, .error e⟩ := by
  unfold updateWith
  rw [verify_reset, hverify]
  rfl

theorem updateWith_of_passed [Sensor S] [Hook H] {candidate : Object} {d : Document}
    (hverify : (d.verify candidate).1 = .ok ()) (state : ProcessState) (k : Collaborators S H) :
    d.updateWith state candidate k = (d.taken candidate).apply state candidate k := by
  unfold updateWith
  rw [verify_reset, hverify]

/-- An update with an object that passes is an application. -/
theorem update_of_passed [Sensor S] [Hook H] {text : String} {candidate : Object} {d : Document}
    (htext : Object.ofText? text = some candidate) (hverify : (d.verify candidate).1 = .ok ())
    (state : ProcessState) (k : Collaborators S H) :
    d.update state text k = (d.taken candidate).apply state candidate k := by
  rw [update_of_object htext, updateWith_of_passed hverify]

/-- An update with an object that does not pass ends with the error of the check. -/
theorem update_outcome_of_rejected [Sensor S] [Hook H] {text : String} {candidate : Object}
    {d : Document} {e : ConfigError} (htext : Object.ofText? text = some candidate)
    (hverify : (d.verify candidate).1 = .error e) (state : ProcessState)
    (k : Collaborators S H) : (d.update state text k).outcome = .error e := by
  rw [update_of_object htext, updateWith_of_rejected hverify]

/-- The reply to an earlier request has no part in an update. -/
theorem updateWith_reply [Sensor S] [Hook H] (state : ProcessState) (candidate : Object)
    (k : Collaborators S H) (d : Document) (r : Reply) :
    { d with reply := r }.updateWith state candidate k = d.updateWith state candidate k := by
  unfold updateWith
  rw [verify_reset, verify_reset]
  rfl

/-! ### Reporting a section -/

/-- The reply after the outcome of a section. -/
def heed (v : Verdict) (r : Reply) : Reply :=
  match v with
  | .ok () => r
  | .error e => r.recordError e

theorem reporting_eq (f : Step α S H) (a : α) (c : Cycle S H) :
    reporting f a c =
      { f a c with
        cycle := { (f a c).cycle with reply := heed (f a c).outcome (f a c).cycle.reply } } := by
  unfold reporting
  rcases f a c with ⟨b, c', v⟩
  cases v <;> rfl

@[simp] theorem resId_heed (v : Verdict) (r : Reply) : (heed v r).resId = r.resId := by
  cases v <;> rfl

theorem raised_heed (v : Verdict) {r : Reply} (hr : r.raised = true) :
    (heed v r).raised = true := by
  cases v with
  | ok _ => exact hr
  | error e => rfl

theorem section?_onward {f : Object → Step α S H}
    (hf : ∀ fragment a c, Cycle.Onward c (f fragment a c).cycle) (found : Option Object)
    (before : Verdict) (a : α) (c : Cycle S H) :
    Cycle.Onward c (section? found f before a c).cycle := by
  cases found with
  | none => exact ⟨rfl, rfl, rfl, id⟩
  | some fragment =>
      have h := hf fragment a c
      show Cycle.Onward c (reporting (f fragment) a c).cycle
      rw [reporting_eq]
      exact ⟨h.state, h.requestId, by simpa using h.resId, fun hc => raised_heed _ (h.raised hc)⟩

/-- The reply keeps the id through both sections, and stays due. -/
theorem apply_reply [Sensor S] [Hook H] (state : ProcessState) (candidate : Object)
    (k : Collaborators S H) (d : Document) :
    (d.apply state candidate k).document.reply.resId = d.reply.resId ∧
      (d.reply.raised = true → (d.apply state candidate k).document.reply.raised = true) := by
  have hcommon := section?_onward (S := S) (H := H) Common.apply_onward
    (Object.object? candidate "common_settings") (.ok ()) d.common (d.cycle state k)
  have hcustom := section?_onward (S := S) (H := H) Custom.apply_onward
    (Object.object? candidate "custom_settings")
    (section? (Object.object? candidate "common_settings") Common.apply (.ok ()) d.common
      (d.cycle state k)).outcome d.custom
    (section? (Object.object? candidate "common_settings") Common.apply (.ok ()) d.common
      (d.cycle state k)).cycle
  exact ⟨hcustom.resId.trans hcommon.resId, fun hd => hcustom.raised (hcommon.raised hd)⟩

/-! ### The reply carries the id of the request -/

/-- An update with an object takes its id, answers under that id, and is due to be reported. -/
theorem update_taken [Sensor S] [Hook H] {text : String} {candidate : Object}
    (htext : Object.ofText? text = some candidate) (state : ProcessState)
    (k : Collaborators S H) (d : Document) :
    (d.update state text k).document.request.id = d.idAfter candidate ∧
      (d.update state text k).document.reply.resId = d.idAfter candidate ∧
      (d.update state text k).document.reply.raised = true := by
  rw [update_of_object htext]
  cases hverify : (d.verify candidate).1 with
  | error e =>
      rw [updateWith_of_rejected hverify]
      exact ⟨rfl, rfl, rfl⟩
  | ok _ =>
      rw [updateWith_of_passed hverify]
      obtain ⟨hres, hraised⟩ := apply_reply state candidate k (d.taken candidate)
      exact ⟨rfl, hres, hraised rfl⟩

/-- **An update with an object is answered under its own id, whatever becomes of it.** -/
theorem update_correlates [Sensor S] [Hook H] {text : String} {candidate : Object}
    (htext : Object.ofText? text = some candidate) (state : ProcessState)
    (k : Collaborators S H) (d : Document) :
    let u := d.update state text k
    u.document.reply.resId = u.document.request.id ∧ u.document.reply.raised = true ∧
      (∀ info id, Object.object? candidate "req_info" = some info →
        Object.string? info "req_id" = some id → u.document.request.id = id) ∧
      ((∀ info, Object.object? candidate "req_info" = some info →
        Object.string? info "req_id" = none) → u.document.request.id = d.request.id) := by
  intro u
  obtain ⟨hid, hres, hraised⟩ := update_taken htext state k d
  refine ⟨hres.trans hid.symm, hraised, ?_, ?_⟩
  · intro info id hinfo hstring
    have hafter : d.idAfter candidate = id := by simp [idAfter, idOf?, hinfo, hstring]
    exact hid.trans hafter
  · intro hnone
    have hafter : d.idAfter candidate = d.request.id := by
      cases hinfo : Object.object? candidate "req_info" with
      | none => simp [idAfter, idOf?, hinfo]
      | some info => simp [idAfter, idOf?, hinfo, hnone info hinfo]
    exact hid.trans hafter

/-- A request for a digital zoom of 2, with settings for the application besides. -/
def zoomRequest : String :=
  (Json.ofMembers [("req_info", .ofMembers [("req_id", .string "7")]),
    ("common_settings", .ofMembers [("pq_settings", .ofMembers [("digital_zoom", .word 2)])]),
    ("custom_settings", .ofMembers [("gain", .word 1)])]).text

/-- A sensor that has no digital zoom, and an application that accepts everything. -/
def zoomless : Collaborators Simulator Indifferent :=
  ⟨Simulator.powerOn.refuse .digitalZoom .notAvailable, {}⟩

/-- A sensor and an application that have been told to refuse nothing. -/
def obliging : Collaborators Simulator Indifferent := ⟨.powerOn, {}⟩

/-- A request that the sensor refuses is answered under its own id too. -/
theorem update_correlates_refused :
    let u := Document.update .idle zoomRequest zoomless {}
    (∃ candidate, Object.ofText? zoomRequest = some candidate) ∧
      u.document.reply.resId = u.document.request.id ∧ u.document.reply.raised = true ∧
      u.document.request.id = "7" ∧ u.document.reply.code = .invalidArgument := by
  let candidate := (Object.ofText? zoomRequest).get (by decide +kernel)
  have htext : Object.ofText? zoomRequest = some candidate := (Option.some_get _).symm
  have h := update_correlates htext .idle zoomless {}
  exact ⟨⟨candidate, htext⟩, h.1, h.2.1, by decide +kernel⟩

/-! ### What the reply says

Both sections are attempted, one after the other.  The common section may have answered with
the refusal by the time a failure is recorded, and the failure of the application's section
is recorded over that of the common one.
-/

/-- The attempt at the common section, if the candidate has one. -/
def commonAttempt [Sensor S] (candidate : Object) (d : Document) (c : Cycle S H) :
    Option (Progress Common S H) :=
  (Object.object? candidate "common_settings").map fun fragment =>
    Common.apply fragment d.common c

/-- The attempt at the application's section, if the candidate has one, in the cycle that the
attempt at the common section leaves. -/
def customAttempt [Sensor S] [Hook H] (candidate : Object) (d : Document) (c : Cycle S H) :
    Option (Progress Custom S H) :=
  (Object.object? candidate "custom_settings").map fun fragment =>
    Custom.apply fragment d.custom (((commonAttempt candidate d c).map (·.cycle)).getD c)

/-- The device runs, and the candidate would change what belongs to the running stream. -/
def refuses (state : ProcessState) (candidate : Object) (d : Document) : Bool :=
  state = .running && (Object.object? candidate "common_settings").any d.common.changesStream

/-- The answer to a request that has passed, from the outcomes of the sections it has. -/
def answer (refused : Bool) : (common custom : Option Verdict) → Code × String
  | _, some (.error e) => (e.code, e.message)
  | some (.error e), _ => (e.code, e.message)
  | _, _ => if refused then (.failedPrecondition, Common.refusal) else (.ok, "")

/-- A section in terms of the attempt at it, which there is only if the section is there. -/
theorem section?_eq (found : Option Object) (f : Object → Step α S H) (before : Verdict) (a : α)
    (c : Cycle S H) :
    let p := found.map fun fragment => f fragment a c
    let left := (p.map (·.cycle)).getD c
    let recorded := heed ((p.map (·.outcome)).getD (.ok ())) left.reply
    let outcome := (p.map (·.outcome)).getD before
    (section? found f before a c) =
      ⟨(p.map (·.value)).getD a, { left with reply := recorded }, outcome⟩ := by
  cases found with
  | none => rfl
  | some fragment => exact reporting_eq (f fragment) a c

/-- The answer after the outcome of a section does not depend on the flag. -/
theorem answer_heed_raised (v : Verdict) (r : Reply) (raised : Bool) :
    (heed v { r with raised }).answer = (heed v r).answer := by
  cases v <;> rfl

/-- The application's section in a cycle in which an earlier failure has been recorded is what
it would have been without that, except for what the reply says. -/
theorem section?_custom [Hook H] (found : Option Object) (before : Verdict) (a : Custom)
    (c : Cycle S H) (r : Reply) :
    let q := found.map fun fragment => Custom.apply fragment a c
    let s := section? found Custom.apply before a { c with reply := r }
    s.value = (q.map (·.value)).getD a ∧ s.outcome = (q.map (·.outcome)).getD before ∧
      s.cycle.hook = (q.map (·.cycle.hook)).getD c.hook ∧ s.cycle.sensor = c.sensor ∧
      s.cycle.reply.answer = (heed ((q.map (·.outcome)).getD (.ok ())) r).answer := by
  cases found with
  | none => exact ⟨rfl, rfl, rfl, rfl, rfl⟩
  | some fragment =>
      intro q s
      obtain ⟨raised, hreply⟩ := Custom.apply_reply fragment a c r
      have hsensor := (Custom.apply_sensor_requests fragment a c).1
      have hs : s = reporting (Custom.apply fragment) a { c with reply := r } := rfl
      rw [hs, reporting_eq, hreply]
      exact ⟨rfl, rfl, rfl, hsensor, answer_heed_raised _ r raised⟩

/-- What the reply says once the attempt at the common section has been recorded. -/
theorem answer_common [Sensor S] (candidate : Object) (d : Document) (c : Cycle S H)
    (hc : c.reply.answer = (.ok, "")) :
    let common := d.commonAttempt candidate c
    (heed ((common.map (·.outcome)).getD (.ok ())) ((common.map (·.cycle)).getD c).reply).answer =
      answer (d.refuses c.state candidate) (common.map (·.outcome)) none := by
  intro common
  cases hfound : Object.object? candidate "common_settings" with
  | none => simp [common, commonAttempt, refuses, hfound, heed, answer, hc]
  | some fragment =>
      have hanswer := Common.apply_answer fragment d.common c
      simp only [common, commonAttempt, hfound, Option.map_some, Option.getD_some]
      rcases hv : (Common.apply fragment d.common c).outcome with e | _
      · rfl
      · simp only [heed, answer, refuses, hfound, hanswer, hc]
        by_cases hdue : c.state = .running ∧ d.common.changesStream fragment = true
        · simp [hdue]
        · simp [hdue]

theorem answer_custom (refused : Bool) (common custom : Option Verdict) (r : Reply)
    (hr : r.answer = answer refused common none) :
    (heed (custom.getD (.ok ())) r).answer = answer refused common custom := by
  rcases custom with _ | (e | _)
  · exact hr
  · rfl
  · refine Eq.trans hr ?_
    rcases common with _ | (e | _) <;> rfl

/-- **An application tells what the attempts at its sections tell.** -/
theorem apply_attempts [Sensor S] [Hook H] (state : ProcessState) (candidate : Object)
    (k : Collaborators S H) (d : Document) (hreply : d.reply.answer = (.ok, "")) :
    let common := d.commonAttempt candidate (d.cycle state k)
    let custom := d.customAttempt candidate (d.cycle state k)
    let u := d.apply state candidate k
    u.outcome = (custom.map (·.outcome)).getD ((common.map (·.outcome)).getD (.ok ())) ∧
      u.document.reply.answer =
        answer (d.refuses state candidate) (common.map (·.outcome)) (custom.map (·.outcome)) ∧
      u.document.common = (common.map (·.value)).getD d.common ∧
      u.document.custom = (custom.map (·.value)).getD d.custom ∧
      u.collaborators.sensor = (common.map (·.cycle.sensor)).getD k.sensor ∧
      u.collaborators.hook = (custom.map (·.cycle.hook)).getD k.hook := by
  intro common custom u
  let c := d.cycle state k
  let left := (common.map (·.cycle)).getD c
  have hp := section?_eq (Object.object? candidate "common_settings") Common.apply (.ok ())
    d.common c
  let before := (common.map (·.outcome)).getD (.ok ())
  have hq := section?_custom (Object.object? candidate "custom_settings") before d.custom left
    (heed before left.reply)
  obtain ⟨hvalue, houtcome, hhook, hsensor, hanswer⟩ := hq
  have hleft : left.sensor = (common.map (·.cycle.sensor)).getD k.sensor ∧
      left.hook = k.hook := by
    simp only [left, common, commonAttempt]
    cases Object.object? candidate "common_settings" with
    | none => exact ⟨rfl, rfl⟩
    | some fragment => exact ⟨rfl, Common.apply_hook fragment d.common c⟩
  have hrecorded := answer_common candidate d c hreply
  simp only [u, apply]
  rw [hp]
  refine ⟨houtcome, ?_, rfl, hvalue, hsensor.trans hleft.1, ?_⟩
  · exact hanswer.trans (answer_custom _ _ _ _ hrecorded)
  · rw [← hleft.2]
    exact hhook

/-- An update with an object that passes tells what the attempts at its sections tell. -/
theorem update_attempts [Sensor S] [Hook H] {text : String} {candidate : Object} {d : Document}
    (htext : Object.ofText? text = some candidate) (hverify : (d.verify candidate).1 = .ok ())
    (state : ProcessState) (k : Collaborators S H) :
    let u := d.update state text k
    let c := (d.taken candidate).cycle state k
    let common := d.commonAttempt candidate c
    let custom := d.customAttempt candidate c
    u.outcome = (custom.map (·.outcome)).getD ((common.map (·.outcome)).getD (.ok ())) ∧
      u.document.reply.answer =
        answer (d.refuses state candidate) (common.map (·.outcome)) (custom.map (·.outcome)) ∧
      u.document.common = (common.map (·.value)).getD d.common ∧
      u.document.custom = (custom.map (·.value)).getD d.custom ∧
      u.collaborators.sensor = (common.map (·.cycle.sensor)).getD k.sensor ∧
      u.collaborators.hook = (custom.map (·.cycle.hook)).getD k.hook := by
  rw [update_of_passed htext hverify]
  exact apply_attempts state candidate k (d.taken candidate) rfl

/-- **What an update returns and what its reply says are decided by the request alone.**
A candidate that does not pass is answered with its error.  Otherwise both sections that are
present are attempted in turn, the last one present gives the outcome, and the reply tells
what `answer` makes of them.  The reply to an earlier request makes no difference. -/
theorem update_answers [Sensor S] [Hook H] {text : String} {candidate : Object}
    (htext : Object.ofText? text = some candidate) (state : ProcessState)
    (k : Collaborators S H) (d : Document) :
    let u := d.update state text k
    let c := (d.taken candidate).cycle state k
    let common := d.commonAttempt candidate c
    let custom := d.customAttempt candidate c
    (∀ e, (d.verify candidate).1 = .error e →
      u.outcome = .error e ∧ u.document.reply.code = e.code ∧
        u.document.reply.detail = e.message) ∧
    ((d.verify candidate).1 = .ok () →
      u.outcome = (custom.map (·.outcome)).getD ((common.map (·.outcome)).getD (.ok ())) ∧
      (u.document.reply.code, u.document.reply.detail) =
        answer (d.refuses state candidate) (common.map (·.outcome)) (custom.map (·.outcome)) ∧
      u.document.common = (common.map (·.value)).getD d.common ∧
      u.document.custom = (custom.map (·.value)).getD d.custom ∧
      u.collaborators.sensor = (common.map (·.cycle.sensor)).getD k.sensor ∧
      u.collaborators.hook = (custom.map (·.cycle.hook)).getD k.hook) ∧
    ∀ r : Reply, { d with reply := r }.update state text k = u := by
  intro u c common custom
  refine ⟨fun e hverify => ?_, fun hverify => ?_, fun r => ?_⟩
  · simp only [u]
    rw [update_of_object htext, updateWith_of_rejected hverify]
    exact ⟨rfl, rfl, rfl⟩
  · simp only [u]
    rw [update_of_object htext, updateWith_of_passed hverify]
    exact apply_attempts state candidate k (d.taken candidate) rfl
  · simp only [u]
    rw [update_of_object htext, update_of_object htext]
    exact updateWith_reply state candidate k d r

/-- The common section fails and the application's does not.  Nothing is returned of the
failure, but the reply tells it, and tells nothing of the error that it held before. -/
theorem update_answers_masked :
    let d : Document := { reply := { code := .outOfRange, detail := "too far" } }
    let u := d.update .idle zoomRequest zoomless
    (∃ candidate, Object.ofText? zoomRequest = some candidate ∧
      (d.verify candidate).1 = .ok ()) ∧
      u.outcome = .ok () ∧
      (u.document.reply.code, u.document.reply.detail) =
        (.invalidArgument, "Digital zoom property failed to be set.") := by
  intro d
  let candidate := (Object.ofText? zoomRequest).get (by decide +kernel)
  have htext : Object.ofText? zoomRequest = some candidate := (Option.some_get _).symm
  have hverify : (d.verify candidate).1 = .ok () := by decide +kernel
  have h := (update_answers htext .idle zoomless d).2.1 hverify
  exact ⟨⟨candidate, htext, hverify⟩, h.1.trans (by decide +kernel),
    h.2.1.trans (by decide +kernel)⟩

end Document

end DeviceConfig
