/-
Told what it shows, a document stays as it is.

Whoever reads a document can send back what was read.  A well-formed document accepts that, as
its checks are made for what it shows.  To apply it is to read every part of it back, and every
part is read as what is held already.  So nothing is left to be done: nothing differs from what
the running stream shows, the log level is the one there is, and the application's settings are
those that it has been handed.

Only the sensor notices.  The picture properties are pushed whether or not they change, so the
sensor has to accept them again.  And a state that is shown is asked for.
-/
import DeviceConfig.Proofs.Application
import DeviceConfig.Proofs.Requests
import DeviceConfig.Proofs.WellFormed

namespace DeviceConfig

variable {S H : Type}

/-! ### Settings of the application -/

namespace Json

theorem number_same_comm (m n : Number) : m.same n = n.same m := by
  cases m <;> cases n <;> first | exact Bool.beq_comm | exact BEq.comm | rfl

mutual

/-- To be the same goes both ways. -/
theorem same_comm : ∀ v w : Json, v.same w = w.same v
  | .null, w | .bool _, w | .number _, w | .string _, w => by
      cases w <;> simp [same, number_same_comm, BEq.comm]
  | .array xs, w => by
      cases w with
      | array ys => exact sameItems_comm xs ys
      | _ => rfl
  | .object xs, w => by
      cases w with
      | object ys => exact sameMembers_comm xs ys
      | _ => rfl

theorem sameItems_comm : ∀ xs ys : List Json, sameItems xs ys = sameItems ys xs
  | [], [] | [], _ :: _ | _ :: _, [] => rfl
  | x :: xs, y :: ys => by
      rw [sameItems, sameItems, same_comm x y, sameItems_comm xs ys]

theorem sameMembers_comm : ∀ xs ys : List (String × Json), sameMembers xs ys = sameMembers ys xs
  | [], [] | [], _ :: _ | _ :: _, [] => rfl
  | (j, x) :: xs, (k, y) :: ys => by
      rw [sameMembers, sameMembers, same_comm x y, sameMembers_comm xs ys, BEq.comm (a := j)]

end

theorem sameMembers_erase (key : String) {o p : Object} (h : sameMembers o p = true) :
    sameMembers (Object.erase key o) (Object.erase key p) = true := by
  rw [sameMembers_iff] at h ⊢
  refine List.rel_filter (fun m n hsame => ?_) h
  show (m.1 != key) = true ↔ (n.1 != key) = true
  rw [hsame.1]

end Json

theorem Custom.unchanged_of_same {old new : Object}
    (h : (Json.object new).same (.object old) = true) : unchanged old new = true := by
  have hbare : (Json.object (bare new)).same (.object (bare old)) = true :=
    Json.sameMembers_erase stampField h
  show (Json.object (bare old)).same (.object (bare new)) = true
  rw [Json.same_comm]
  exact hbare

/-! ### The common section -/

theorem Inference.apply_of_same {a : Inference} {candidate : Object}
    (h : (Json.object candidate).same a.toJson = true) (c : Cycle S H) :
    (apply candidate a c).value = a := by
  have hkeys : ["number_of_iterations"].Nodup := by decide
  have hword : Object.word? candidate "number_of_iterations" = some a.iterations :=
    Object.bind_of_same h Json.word?_of_same (Object.field?_ofList_of_mem hkeys (by simp))
  unfold apply
  rw [hword]
  show (Step.store a a c).value = a
  unfold Step.store
  split <;> rfl

namespace Common

theorem field?_of_same {a : Common} {candidate : Object}
    (h : (Json.object candidate).same a.toJson = true) {name : String} {w : Json}
    (hw : (name, some w) ∈ a.members) :
    ∃ v, Object.field? candidate name = some v ∧ v.same w = true := by
  have hfield := Json.field?_of_sameMembers (p := Object.ofOptions a.members) name h
  rw [Object.field?_ofOptions a.members_nodup hw] at hfield
  exact hfield

theorem word?_of_same {a : Common} {candidate : Object}
    (h : (Json.object candidate).same a.toJson = true) {name : String} {known : Option UInt32}
    (hknown : (name, known.map .word) ∈ a.members) : Object.word? candidate name = known :=
  Object.bind_of_same (p := Object.ofOptions a.members) h Json.word?_of_same
    (Object.field?_ofOptions a.members_nodup hknown)

/-- Nothing that a section shows differs from what it shows. -/
theorem differs_of_same {a : Common} {candidate : Object}
    (h : (Json.object candidate).same a.toJson = true) {name : String} {w : Json}
    (hw : (name, some w) ∈ a.members) : differs candidate name w = false := by
  obtain ⟨v, hv, hsame⟩ := field?_of_same h hw
  show (Object.field? candidate name).any (fun v => !v.same w) = false
  rw [hv, Option.any_some, hsame]
  rfl

theorem changesStream_of_same {a : Common} {candidate : Object}
    (h : (Json.object candidate).same a.toJson = true) : a.changesStream candidate = false := by
  have hnumber : Object.word? candidate "number_of_inference_per_message" =
      a.inferencePerMessage := word?_of_same h (by simp [members])
  unfold changesStream
  rw [differs_of_same h (by simp [members]), differs_of_same h (by simp [members]),
    differs_of_same h (by simp [members]), hnumber]
  cases a.inferencePerMessage <;> simp

/-- What a section shows asks for the state that it shows, and for no log level. -/
theorem asked_of_same {a : Common} {candidate : Object}
    (h : (Json.object candidate).same a.toJson = true) (before : Requests) :
    a.newLogLevel? candidate = none ∧
      a.asked candidate before = { before with processState := some a.state.toState } := by
  have hstate : Object.word? candidate "process_state" = some a.state.toWord :=
    word?_of_same h (by simp [members])
  have hlevel : Object.word? candidate "log_level" = some a.logLevel :=
    word?_of_same h (by simp [members])
  have hnew : a.newLogLevel? candidate = none := by
    unfold newLogLevel?
    rw [hlevel]
    simp
  have hrequested : ProcessState.requested a.state.toWord = a.state.toState := by
    cases a.state <;> rfl
  refine ⟨hnew, ?_⟩
  unfold asked
  rw [hnew, hstate, Option.map_some, hrequested]
  rfl

/-- The inference part is read as what is held. -/
theorem apply_inference [Sensor S] {a : Common} {candidate : Object}
    (h : (Json.object candidate).same a.toJson = true) (c : Cycle S H) :
    (apply candidate a c).value.inference = a.inference := by
  let R (b : Common) (_ : Cycle S H) (b' : Common) (_ : Cycle S H) : Prop :=
    b.inference = a.inference → b'.inference = a.inference
  have hR : Step.Course R := ⟨fun _ _ => id, fun h h' hb => h' (h hb)⟩
  have hadmitted : Step.Leads R (applyAdmitted (admitted c.state candidate)) := by
    refine hR.all fun f hf => ?_
    simp only [List.mem_cons, List.not_mem_nil, or_false] at hf
    rcases hf with rfl | rfl | rfl | rfl | rfl
    · exact hR.whenSome fun _ _ _ _ => id
    · refine hR.whenSome fun fragment hfragment b c' hb => ?_
      have hfound : Object.object? candidate "inference_settings" = some fragment := by
        rw [← hfragment]
        unfold admitted
        split
        · simp [Object.object?, Object.field?_eraseAll, streamFields]
        · rfl
      have hsame : (Json.object fragment).same a.inference.toJson = true :=
        same_of_differs (differs_of_same h (by simp [members])) hfound
      show (Inference.apply fragment b.inference c').value = a.inference
      rw [hb]
      exact Inference.apply_of_same hsame c'
    all_goals exact hR.whenSome fun _ _ _ _ => id
  obtain ⟨reply, happly⟩ := apply_eq candidate a c
  rw [happly]
  exact hadmitted _ _ rfl

/-- A section that is told what it shows stays as it is, if the sensor accepts everything. -/
theorem apply_of_same [Sensor S] {a : Common} (hpicture : a.picture.WellFormed)
    {candidate : Object} (hreadable : Readable candidate)
    (h : (Json.object candidate).same a.toJson = true) {c : Cycle S H}
    (hc : Sensor.Willing c.sensor) : (apply candidate a c).value = a := by
  obtain ⟨hstream, -⟩ := apply_keeps hpicture.settled hreadable (changesStream_of_same h) a c hc
    ⟨rfl, rfl, rfl, rfl⟩
  obtain ⟨-, hstate, hlevel⟩ := apply_asks candidate a c
  rw [(asked_of_same h c.requests).1] at hlevel
  have hinference := apply_inference h c
  rw [Option.getD_none] at hlevel
  obtain ⟨hpicture, hports, hcodec, hnumber⟩ := hstream
  show _ = (⟨a.state, a.logLevel, a.inferencePerMessage, a.inference, a.picture, a.ports,
    a.codec⟩ : Common)
  rw [← hstate, ← hlevel, ← hnumber, ← hinference, ← hpicture, ← hports, ← hcodec]

/-- A sensor that accepts everything leaves a readable section no reason to fail. -/
theorem apply_of_willing [Sensor S] {candidate : Object} (hreadable : Readable candidate)
    (a : Common) {c : Cycle S H} (hc : Sensor.Willing c.sensor) :
    (apply candidate a c).outcome = .ok () := by
  let heard : Cycle (Recorder S) (HookRecorder H) :=
    ⟨c.reply, ⟨c.sensor, []⟩, ⟨c.hook, []⟩, c.state, c.requestId, c.requests⟩
  have haccounts := apply_accounts (S := S) (H := H) hreadable
  have hplain : (apply candidate a heard).plain = apply candidate a c := haccounts.plain a heard
  -- Whatever is recorded of a willing sensor has been accepted.
  let Taken (c : Cycle (Recorder S) (HookRecorder H)) : Prop :=
    Sensor.Willing c.sensor.sensor ∧ ∀ w ∈ c.sensor.writes, w.outcome = .ok ()
  have hframe : Cycle.Frame fun c c' => Taken c → Taken c' :=
    { refl := fun _ => id
      trans := fun h h' ht => h' (h ht)
      raise := fun _ => id
      push := by
        rintro p failure c ⟨hwilling, hwrites⟩
        rw [Cycle.push_snd]
        refine ⟨hwilling.next p, fun w hw => ?_⟩
        rcases List.mem_append.mp hw with hw | hw
        · exact hwrites w hw
        · rw [List.mem_singleton.mp hw]
          exact hwilling [] p }
  obtain ⟨-, hwrites⟩ := apply_within hframe (fun _ _ => id) (fun _ => id) candidate a heard
    ⟨hc, nofun⟩
  rw [← hplain]
  refine Verdict.eq_ok_of_forall_ne fun e he => ?_
  obtain ⟨w, hw, r, failure, hrefused, -⟩ := haccounts.blamed a heard e he
  rw [hwrites w hw] at hrefused
  cases hrefused

end Common

/-! ### The document -/

/-- A text is read by its characters. -/
theorem Written.ofText?_ofList (chars : List Char) :
    Written.ofText? (String.ofList chars) =
      (Written.item? (2 * chars.length + 2) chars).bind fun (value, rest) =>
        if (Written.skipBlank rest).isEmpty then some value else none := by
  unfold Written.ofText?
  rw [String.toList_ofList]
  simp only
  cases Written.item? (2 * chars.length + 2) chars <;> rfl

/-- A text that has been written is read by the characters that have been written. -/
theorem Object.ofText?_text (v : Json) :
    Object.ofText? v.text =
      (((Written.item? (2 * v.tokens.flatten.length + 2) v.tokens.flatten).bind
        fun (value, rest) =>
          if (Written.skipBlank rest).isEmpty then some value else none).bind
        (Written.value? Written.maxDepth)).bind Json.object? := by
  rw [Object.ofText?, Json.ofText?, Json.text, Written.ofText?_ofList]

namespace Document

/-- A document that is what is shown of another has the same objects under its names. -/
theorem object?_of_same {d : Document} {candidate : Object}
    (h : (Json.object candidate).same d.toJson = true) {name : String} {p : Object}
    (hp : (name, .object p) ∈ d.members) :
    ∃ o, Object.object? candidate name = some o ∧ (Json.object o).same (.object p) = true := by
  obtain ⟨v, hv, hsame⟩ := Json.field?_of_same_ofMembers d.members_nodup h hp
  obtain ⟨o, rfl, hmembers⟩ := Json.object_of_same hsame
  exact ⟨o, Object.object?_of_field? hv, hmembers⟩

/-- The id that is shown is the id of the request. -/
theorem idAfter_of_same {d : Document} {candidate : Object}
    (h : (Json.object candidate).same d.toJson = true) : d.idAfter candidate = d.request.id := by
  have hkeys : ["req_id"].Nodup := by decide
  obtain ⟨info, hinfo, hsame⟩ : ∃ info, Object.object? candidate "req_info" = some info ∧
      (Json.object info).same d.request.toJson = true := object?_of_same h d.request_mem
  have hid : Object.string? info "req_id" = some d.request.id :=
    Object.bind_of_same hsame Json.string?_of_same (Object.field?_ofList_of_mem hkeys (by simp))
  unfold idAfter idOf?
  rw [hinfo, Option.bind_some, hid]
  rfl

/-- **Told what it shows, a well-formed document stays as it is.**  It accepts what it shows, and
if the sensor accepts everything, nothing fails and nothing is refused, whatever state the device
is in.  Request and settings stay as they are, the application is told nothing, and of the device
nothing is asked but the state that is shown. -/
theorem update_echo [Sensor S] [Hook H] {d : Document} (hd : d.WellFormed) {text : String}
    {candidate : Object} (htext : Object.ofText? text = some candidate)
    (hecho : (Json.object candidate).same d.toJson = true) (state : ProcessState)
    (k : Collaborators S H) (hwilling : Sensor.Willing k.sensor) :
    let u := d.update state text k
    let heard := (d.update state text k.recorded).collaborators
    (d.verify candidate).1 = .ok () ∧ u.outcome = .ok () ∧
      (u.document.reply.code, u.document.reply.detail) = (.ok, "") ∧
      u.document.request = d.request ∧ u.document.common = d.common ∧
      u.document.custom = d.custom ∧ heard.hook.calls = [] ∧
      u.document.requests =
        { d.requests with processState := some d.common.state.toState } := by
  intro u heard
  have hverify : (d.verify candidate).1 = .ok () := verify_of_same hd hecho
  obtain ⟨settings, hsettings, hcommon⟩ := object?_of_same hecho d.common_mem
  obtain ⟨custom, hfound, hcustom⟩ := object?_of_same hecho d.custom_mem
  -- The application's section has nothing new to hand over.
  have hsection : d.sectionOf? "custom_settings" text = some custom :=
    sectionOf?_eq_some.mpr ⟨candidate, htext, hverify, hfound⟩
  have hunchanged : Custom.unchanged d.custom.settings custom = true :=
    Custom.unchanged_of_same hcustom
  obtain ⟨hkept, -, hok⟩ := update_of_unchanged hsection hunchanged state k
  obtain ⟨-, hcalls, -⟩ := update_of_unchanged hsection hunchanged state k.recorded
  -- The attempt at the common section ends where it began.
  have hreadable : Common.Readable settings := readable_of_passes hverify hsettings
  let c := (d.taken candidate).cycle state k
  let p := Common.apply settings d.common c
  have hattempt : d.commonAttempt candidate c = some p := by
    unfold commonAttempt
    rw [hsettings]
    rfl
  have hvalue : p.value = d.common :=
    Common.apply_of_same hd.picture hreadable hcommon hwilling
  have hpok : p.outcome = .ok () := Common.apply_of_willing hreadable d.common hwilling
  have hunrefused : d.refuses state candidate = false := by
    unfold refuses
    rw [hsettings, Option.any_some, Common.changesStream_of_same hcommon, Bool.and_false]
  obtain ⟨houtcome, hanswer, hafter, -⟩ := update_attempts htext hverify state k
  have hqok : ∀ v, (d.customAttempt candidate c).map (·.outcome) = some v → v = .ok () := by
    intro v hv
    rw [show (d.customAttempt candidate _).map (·.outcome) = some v from hv] at houtcome
    exact houtcome.symm.trans hok
  have hreply : u.document.reply.answer = (.ok, "") := by
    rw [hanswer, hunrefused]
    refine (answer_of_ok (fun v hv => ?_) hqok false).2
    rw [show d.commonAttempt candidate _ = some p from hattempt] at hv
    exact (Option.some.inj hv).symm.trans hpok
  -- What is asked for is settled before anything else is applied.
  have hasks := apply_asks state candidate k (d.taken candidate)
  rw [← update_of_passed htext hverify, hsettings] at hasks
  refine ⟨hverify, hok, hreply, ?_, ?_, hkept, ?_, ?_⟩
  · have hid := (update_taken htext state k d).1
    rw [idAfter_of_same hecho] at hid
    show Request.mk u.document.request.id = d.request
    rw [hid]
  · rw [hafter, show d.commonAttempt candidate _ = some p from hattempt]
    exact hvalue
  · show (d.update state text k.recorded).collaborators.hook.calls = []
    rw [hcalls]
    rfl
  · exact hasks.1.trans (Common.asked_of_same hcommon d.requests).2

/-- A document that has been loaded from a sensor.  It runs, and keeps a register write and
settings of the application. -/
def furnished : Document :=
  { registered with
    request := ⟨"12"⟩
    common.state := .running
    custom := ⟨.ofList [("gain", .word 1)]⟩ }

theorem furnished_wellFormed : furnished.WellFormed := by
  refine ⟨⟨fun s => ?_, fun s => ?_, by decide⟩, by decide⟩
  · cases s
    all_goals
      refine ⟨_, rfl, ?_⟩
      unfold Scalar.Proper
      decide +kernel
  · cases s <;> exact ⟨_, rfl, by decide +kernel⟩

/-- The text of a running device's own document is not refused, and asks to keep running. -/
theorem update_echo_furnished :
    furnished.WellFormed ∧ Sensor.Willing Undemanding.mk ∧
      (∃ candidate, Object.ofText? furnished.toJson.text = some candidate ∧
        (Json.object candidate).same furnished.toJson = true) ∧
      (furnished.update .running furnished.toJson.text ⟨Undemanding.mk, Indifferent.mk⟩).outcome =
        .ok () ∧
      (furnished.update .running furnished.toJson.text
        ⟨Undemanding.mk, Indifferent.mk⟩).document.requests = ⟨some .running, none⟩ := by
  have hread : (Object.ofText? furnished.toJson.text).any (fun candidate =>
      (Json.object candidate).same furnished.toJson) = true := by
    rw [Object.ofText?_text]
    decide +kernel
  obtain ⟨candidate, htext, hecho⟩ := (Option.any_eq_true _ _).mp hread
  obtain ⟨-, hok, -, -, -, -, -, hrequests⟩ := update_echo furnished_wellFormed htext hecho
    .running ⟨Undemanding.mk, Indifferent.mk⟩ (Undemanding.willing _)
  exact ⟨furnished_wellFormed, Undemanding.willing _, ⟨candidate, htext, hecho⟩, hok, hrequests⟩

end Document

end DeviceConfig
