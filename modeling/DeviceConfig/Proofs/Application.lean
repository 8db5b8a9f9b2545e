/-
What the application has been told.

Settings are handed to the application when they change, and the stamp on those that are stored
says what the application has made of them.  So the stored settings are always those of the last
call, with the answer to it in their stamp, and settings that are the same but for the stamp are
not handed over again.

This limits what a success says.  Whoever repeats settings that the application has rejected asks
for no change, so nothing is done, and nothing fails.  That the settings have been rejected is
still to be seen in their stamp.
-/
import DeviceConfig.Proofs.Recording

namespace DeviceConfig

variable {S H : Type}

/-! ### Stamps -/

namespace Object

theorem erase_insert (key : String) (v : Json) (o : Object) :
    erase key (insert key v o) = erase key o := by
  unfold erase
  induction o with
  | nil => simp [insert]
  | cons m rest ih =>
      obtain ⟨k, w⟩ := m
      unfold insert
      by_cases hlt : key < k
      · rw [if_pos hlt, List.filter_cons_of_neg (by simp)]
      · rw [if_neg hlt]
        by_cases heq : key = k
        · rw [if_pos heq, List.filter_cons_of_neg (by simp),
            List.filter_cons_of_neg (by simp [heq])]
        · rw [if_neg heq, List.filter_cons, List.filter_cons, ih]

end Object

namespace Custom

/-- The stamp that tells what the application has made of settings. -/
def stampOf (requestId : String) : Verdict → Record
  | .ok () => accepted requestId
  | .error e => rejected requestId e

theorem bare_stamp (r : Record) (settings : Object) : bare (stamp r settings) = bare settings :=
  Object.erase_insert stampField r.toJson settings

theorem field?_stamp (r : Record) (settings : Object) :
    Object.field? (stamp r settings) stampField = some r.toJson := by
  unfold stamp
  rw [Object.field?_insert, if_pos rfl]

/-- Settings that are kept are those of the candidate, apart from the stamp. -/
theorem bare_kept (requestId : String) (candidate : Object) (v : Verdict) :
    bare (kept requestId candidate v) = bare candidate := by
  cases v with
  | ok _ => exact bare_stamp _ candidate
  | error e => exact (bare_stamp _ _).trans (bare_stamp _ candidate)

theorem field?_kept (requestId : String) (candidate : Object) (v : Verdict) :
    Object.field? (kept requestId candidate v) stampField =
      some (stampOf requestId v).toJson := by
  cases v with
  | ok _ => exact field?_stamp _ _
  | error e => exact field?_stamp _ _

theorem unchanged_kept (requestId : String) (candidate : Object) (v : Verdict) (new : Object) :
    unchanged (kept requestId candidate v) new = unchanged candidate new := by
  unfold unchanged
  rw [bare_kept]

/-- The text of settings as they are handed over. -/
def handed (requestId : String) (settings : Object) : String :=
  (Json.object (stamp (accepted requestId) settings)).text

/-- What becomes of the section and of the application, and what the outcome is.  The application
hears of new settings only, and these are kept whatever it answers. -/
def deliver [Hook H] (requestId : String) (settings : Object) (a : Custom) (hook : H) :
    Custom × H × Verdict :=
  if unchanged a.settings settings then (a, hook, .ok ())
  else
    let answer := Hook.configure hook "custom_settings" (handed requestId settings)
    (⟨kept requestId settings answer.1⟩, answer.2, answer.1)

theorem apply_delivers [Hook H] (settings : Object) (a : Custom) (c : Cycle S H) :
    let p := apply settings a c
    (p.value, p.cycle.hook, p.outcome) = deliver c.requestId settings a c.hook := by
  intro p
  unfold deliver
  cases hchanged : unchanged a.settings settings with
  | true =>
      simp only [p, apply_of_unchanged hchanged]
      rfl
  | false =>
      simp only [p, apply_of_changed hchanged]
      rfl

end Custom

/-! ### One update -/

namespace Document

/-- **What an update tells the application**, and what it returns of its answer. -/
theorem update_delivers [Sensor S] [Hook H] {d : Document} {text : String} {settings : Object}
    (h : d.sectionOf? "custom_settings" text = some settings) (state : ProcessState)
    (k : Collaborators S H) :
    let u := d.update state text k
    (u.document.custom, u.collaborators.hook, u.outcome) =
      Custom.deliver u.document.request.id settings d.custom k.hook := by
  intro u
  obtain ⟨candidate, htext, hverify, hsettings⟩ := sectionOf?_eq_some.mp h
  obtain ⟨houtcome, -, -, hcustom, -, hhook⟩ := update_attempts htext hverify state k
  have hid : u.document.request.id = d.idAfter candidate := (update_taken htext state k d).1
  -- The attempt at the common section comes first, and leaves the application and the id alone.
  let c := (d.taken candidate).cycle state k
  let left := ((d.commonAttempt candidate c).map (·.cycle)).getD c
  have hleft : left.hook = k.hook ∧ left.requestId = u.document.request.id := by
    rw [hid]
    simp only [left, commonAttempt]
    cases Object.object? candidate "common_settings" with
    | none => exact ⟨rfl, rfl⟩
    | some fragment =>
        exact ⟨Common.apply_hook fragment d.common c,
          (Common.apply_onward fragment d.common c).requestId⟩
  rw [customAttempt, hsettings] at hcustom hhook houtcome
  rw [← hleft.1, ← hleft.2, ← Custom.apply_delivers]
  exact congr (congrArg Prod.mk hcustom) (congr (congrArg Prod.mk hhook) houtcome)

/-- Settings that are held already are not handed over, and there is nothing else in the
application's section that could fail. -/
theorem update_of_unchanged [Sensor S] [Hook H] {d : Document} {text : String}
    {settings : Object} (h : d.sectionOf? "custom_settings" text = some settings)
    (hunchanged : Custom.unchanged d.custom.settings settings = true) (state : ProcessState)
    (k : Collaborators S H) :
    let u := d.update state text k
    u.document.custom = d.custom ∧ u.collaborators.hook = k.hook ∧ u.outcome = .ok () := by
  intro u
  have hdelivers : (u.document.custom, u.collaborators.hook, u.outcome) =
      (d.custom, k.hook, .ok ()) := (update_delivers h state k).trans (if_pos hunchanged)
  obtain ⟨hcustom, hrest⟩ := Prod.mk.inj hdelivers
  obtain ⟨hhook, houtcome⟩ := Prod.mk.inj hrest
  exact ⟨hcustom, hhook, houtcome⟩

end Document

/-! ### Runs of updates -/

/-- A record makes no difference to an update, whatever is in it already. -/
theorem Document.update_plain [Sensor S] [Hook H] (state : ProcessState) (text : String)
    (k : Collaborators (Recorder S) (HookRecorder H)) (d : Document) :
    (d.update state text k).plain = d.update state text ⟨k.sensor.sensor, k.hook.hook⟩ := by
  unfold update
  cases Json.ofText? text with
  | none => rfl
  | some v =>
      cases hobject : v.object? with
      | none =>
          simp only [hobject]
          rfl
      | some candidate =>
          simp only [hobject]
          cases hverify : (d.verify candidate).1 with
          | error e =>
              rw [updateWith_of_rejected hverify, updateWith_of_rejected hverify]
              rfl
          | ok _ =>
              rw [updateWith_of_passed hverify, updateWith_of_passed hverify]
              exact apply_plain (fun _ => readable_of_passes hverify) state k _

namespace Document

/-- The document and its collaborators after several updates, each in some state of the device. -/
def updateAll [Sensor S] [Hook H] (inputs : List (ProcessState × String)) (d : Document)
    (k : Collaborators S H) : Document × Collaborators S H :=
  inputs.foldl (fun x input =>
    let u := x.1.update input.1 input.2 x.2
    (u.document, u.collaborators)) (d, k)

/-- A run of updates does the same whether or not it is recorded. -/
theorem updateAll_plain [Sensor S] [Hook H] (inputs : List (ProcessState × String)) :
    ∀ (d : Document) (k : Collaborators (Recorder S) (HookRecorder H)),
      let run := updateAll inputs d k
      (run.1, ⟨run.2.sensor.sensor, run.2.hook.hook⟩) =
        updateAll inputs d ⟨k.sensor.sensor, k.hook.hook⟩ := by
  induction inputs with
  | nil => intro d k; rfl
  | cons input rest ih =>
      obtain ⟨state, text⟩ := input
      intro d k
      have hplain := update_plain state text k d
      show _ = updateAll rest (d.update state text ⟨k.sensor.sensor, k.hook.hook⟩).document
        (d.update state text ⟨k.sensor.sensor, k.hook.hook⟩).collaborators
      rw [← hplain]
      exact ih (d.update state text k).document (d.update state text k).collaborators

end Document

/-- The stored settings are those of the last call, with a stamp that tells of its outcome.  As
long as there has been no call, there are none. -/
def Custom.Reflects (calls : List Call) (a : Custom) : Prop :=
  match calls.getLast? with
  | none => a.settings = []
  | some call => ∃ id settings,
      call.settings = handed id settings ∧ a.settings = kept id settings call.outcome

/-- The device after several updates. -/
def Device.updateAll [Sensor S] [Hook H] (texts : List String) (d : Device S H) : Device S H :=
  texts.foldl (fun d text => (d.update text).2.2) d

namespace Device

/-- The device without the record. -/
def plain (d : Device (Recorder S) (HookRecorder H)) : Device S H :=
  ⟨d.document, ⟨d.collaborators.sensor.sensor, d.collaborators.hook.hook⟩, d.current, d.next,
    d.pending⟩

/-- An update does the same whether or not it is recorded. -/
theorem update_plain [Sensor S] [Hook H] (text : String)
    (d : Device (Recorder S) (HookRecorder H)) :
    (d.plain.update text).1 = (d.update text).1 ∧
      (d.plain.update text).2.2 = (d.update text).2.2.plain := by
  have hplain : d.document.update d.current text d.plain.collaborators =
      (d.document.update d.current text d.collaborators).plain :=
    (Document.update_plain d.current text d.collaborators d.document).symm
  have hdocument : d.plain.document = d.document := rfl
  have hcurrent : d.plain.current = d.current := rfl
  simp only [update, hdocument, hcurrent, hplain]
  exact ⟨rfl, rfl⟩

theorem updateAll_plain [Sensor S] [Hook H] (texts : List String) :
    ∀ d : Device (Recorder S) (HookRecorder H),
      (d.updateAll texts).plain = d.plain.updateAll texts := by
  induction texts with
  | nil => intro d; rfl
  | cons text rest ih =>
      intro d
      show ((d.update text).2.2.updateAll rest).plain = (d.plain.update text).2.2.updateAll rest
      rw [ih, (update_plain text d).2]

/-- An update hands settings over in a call that the stored settings reflect, or leaves both as
they are. -/
theorem update_reflects [Sensor S] [Hook H] {d : Device S (HookRecorder H)} (text : String)
    (h : d.document.custom.Reflects d.collaborators.hook.calls) :
    (d.update text).2.2.document.custom.Reflects (d.update text).2.2.collaborators.hook.calls := by
  let u := d.document.update d.current text d.collaborators
  show u.document.custom.Reflects u.collaborators.hook.calls
  cases hsettings : d.document.sectionOf? "custom_settings" text with
  | none =>
      obtain ⟨hcustom, hhook⟩ :=
        (Document.update_of_sectionOf?_none hsettings d.current d.collaborators).2 rfl
      rw [show u.document.custom = _ from hcustom, show u.collaborators.hook = _ from hhook]
      exact h
  | some settings =>
      have hdelivers := Document.update_delivers hsettings d.current d.collaborators
      unfold Custom.deliver at hdelivers
      split at hdelivers
      · obtain ⟨hcustom, hrest⟩ := Prod.mk.inj hdelivers
        rw [show u.document.custom = _ from hcustom,
          show u.collaborators.hook = _ from (Prod.mk.inj hrest).1]
        exact h
      · obtain ⟨hcustom, hrest⟩ := Prod.mk.inj hdelivers
        rw [show u.document.custom = _ from hcustom,
          show u.collaborators.hook = _ from (Prod.mk.inj hrest).1]
        unfold Custom.Reflects
        simp only [Hook.configure, List.getLast?_concat]
        exact ⟨_, settings, rfl, rfl⟩

theorem updateAll_reflects [Sensor S] [Hook H] (texts : List String) :
    ∀ {d : Device S (HookRecorder H)}, d.document.custom.Reflects d.collaborators.hook.calls →
      (d.updateAll texts).document.custom.Reflects
        (d.updateAll texts).collaborators.hook.calls := by
  induction texts with
  | nil => intro d h; exact h
  | cons text rest ih => intro d h; exact ih (update_reflects text h)

/-- An object that is applied without an error has passed. -/
theorem verify_of_ok [Sensor S] [Hook H] {d : Device S H} {text : String} {candidate : Object}
    (htext : Object.ofText? text = some candidate) (hok : (d.update text).1 = .ok ()) :
    (d.document.verify candidate).1 = .ok () := by
  refine Verdict.eq_ok_of_forall_ne fun e hverify => ?_
  have herror := Document.update_outcome_of_rejected htext hverify d.current d.collaborators
  rw [show (d.update text).1 = _ from herror] at hok
  cases hok

/-! ### What a success says -/

/-- **After a success the application has taken the settings of the last call, unless the request
repeats settings that it has rejected.**  In that case the request has the settings of the last
call but for the stamp, they are not handed over again, nothing changes in the section, and the
stamp on the stored settings still tells of the rejection. -/
theorem updateAll_applies [Sensor S] [Hook H] (sensor : S) (hook : H) (texts : List String)
    {text : String} {candidate settings : Object}
    (htext : Object.ofText? text = some candidate)
    (hsettings : Object.object? candidate "custom_settings" = some settings) :
    let d : Device (Recorder S) (HookRecorder H) := updateAll texts (new ⟨sensor, []⟩ ⟨hook, []⟩)
    let after := (d.update text).2.2
    after.plain = ((updateAll texts (new sensor hook)).update text).2.2 ∧
      ((d.update text).1 = .ok () → ∀ call, after.collaborators.hook.calls.getLast? = some call →
        call.outcome = .ok () ∨
          ∃ e id rejected, call.outcome = .error e ∧ call.settings = Custom.handed id rejected ∧
            Custom.unchanged rejected settings = true ∧
            after.collaborators.hook.calls = d.collaborators.hook.calls ∧
            after.document.custom = d.document.custom ∧
            Object.field? after.document.custom.settings Custom.stampField =
              some (Custom.rejected id e).toJson) := by
  intro d after
  constructor
  · rw [← (update_plain text d).2, updateAll_plain]
    rfl
  intro hok call hcall
  have hsection : d.document.sectionOf? "custom_settings" text = some settings :=
    Document.sectionOf?_eq_some.mpr ⟨candidate, htext, verify_of_ok htext hok, hsettings⟩
  have hdelivers := Document.update_delivers hsection d.current d.collaborators
  unfold Custom.deliver at hdelivers
  split at hdelivers
  · -- Nothing has been handed over, so the last call is that of an earlier update.
    rename_i hsame
    obtain ⟨hcustom, hrest⟩ := Prod.mk.inj hdelivers
    have hafter : after.document.custom = d.document.custom := hcustom
    have hcalls : after.collaborators.hook.calls = d.collaborators.hook.calls :=
      congrArg HookRecorder.calls (Prod.mk.inj hrest).1
    have hreflects : d.document.custom.Reflects d.collaborators.hook.calls :=
      updateAll_reflects texts rfl
    unfold Custom.Reflects at hreflects
    rw [← hcalls, hcall] at hreflects
    obtain ⟨id, rejected, hhanded, hkept⟩ := hreflects
    cases houtcome : call.outcome with
    | ok _ => exact .inl rfl
    | error e =>
        rw [houtcome] at hkept
        refine .inr ⟨e, id, rejected, rfl, hhanded, ?_, hcalls, hafter, ?_⟩
        · rw [hkept, Custom.unchanged_kept] at hsame
          exact hsame
        · rw [hafter, hkept]
          exact Custom.field?_kept id rejected (.error e)
  · -- The last call is the one that has decided the outcome.
    obtain ⟨-, hrest⟩ := Prod.mk.inj hdelivers
    obtain ⟨hhook, houtcome⟩ := Prod.mk.inj hrest
    have hcalls : after.collaborators.hook.calls = _ := congrArg HookRecorder.calls hhook
    simp only [Hook.configure] at hcalls
    rw [hcalls, List.getLast?_concat] at hcall
    rw [← Option.some.inj hcall]
    exact .inl (houtcome.symm.trans hok)

/-- An application that rejects everything. -/
structure Reluctant where

instance : Hook Reluctant := ⟨fun h _ _ => (.error (.configure .aborted "no"), h)⟩

/-- A request that changes the application's settings. -/
def gainRequest : String :=
  (Json.ofMembers [("req_info", .ofMembers [("req_id", .string "1")]),
    ("custom_settings", .ofMembers [("gain", .word 1)])]).text

/-- A device whose application has rejected the settings of a request. -/
def snubbed : Device (Recorder Simulator) (HookRecorder Reluctant) :=
  updateAll [gainRequest] (new ⟨.powerOn, []⟩ ⟨.mk, []⟩)

/-- The same request succeeds when it is repeated, without another call. -/
theorem snubbed_repeats :
    (∃ candidate settings, Object.ofText? gainRequest = some candidate ∧
      Object.object? candidate "custom_settings" = some settings) ∧
      (snubbed.update gainRequest).1 = .ok () ∧
      ∃ call, (snubbed.update gainRequest).2.2.collaborators.hook.calls.getLast? = some call ∧
        call.outcome = .error (.configure .aborted "no") := by
  have hobject : ((Object.ofText? gainRequest).bind fun candidate =>
      Object.object? candidate "custom_settings").isSome = true := by decide +kernel
  have hlast : (snubbed.update gainRequest).2.2.collaborators.hook.calls.getLast?.map (·.outcome) =
      some (.error (.configure .aborted "no")) := by decide +kernel
  obtain ⟨settings, hsettings⟩ := Option.isSome_iff_exists.mp hobject
  obtain ⟨candidate, htext, hcandidate⟩ := Option.bind_eq_some_iff.mp hsettings
  exact ⟨⟨candidate, settings, htext, hcandidate⟩, by decide +kernel,
    Option.map_eq_some_iff.mp hlast⟩

/-- So a success alone does not say that the application has taken the settings of the last
call. -/
theorem not_applied_of_repeated :
    ¬ ∀ (texts : List String) (text : String) (candidate settings : Object) (call : Call),
      let d := updateAll texts (new ⟨Simulator.powerOn, []⟩ ⟨Reluctant.mk, []⟩ :
        Device (Recorder Simulator) (HookRecorder Reluctant))
      Object.ofText? text = some candidate →
        Object.object? candidate "custom_settings" = some settings →
        (d.update text).1 = .ok () →
        (d.update text).2.2.collaborators.hook.calls.getLast? = some call →
        call.outcome = .ok () := by
  intro happlied
  obtain ⟨⟨candidate, settings, htext, hsettings⟩, hok, call, hcall, houtcome⟩ := snubbed_repeats
  unfold snubbed at hok hcall
  have haccepted :=
    happlied [gainRequest] gainRequest candidate settings call htext hsettings hok hcall
  rw [houtcome] at haccepted
  cases haccepted

/-- What is stored after the repetition still tells that the settings have been rejected. -/
theorem updateAll_applies_repeated :
    let after := (snubbed.update gainRequest).2.2
    (∃ candidate settings, Object.ofText? gainRequest = some candidate ∧
      Object.object? candidate "custom_settings" = some settings) ∧
      (snubbed.update gainRequest).1 = .ok () ∧
      after.collaborators.hook.calls = snubbed.collaborators.hook.calls ∧
      ∃ id, Object.field? after.document.custom.settings Custom.stampField =
        some (Custom.rejected id (.configure .aborted "no")).toJson := by
  obtain ⟨⟨candidate, settings, htext, hsettings⟩, hok, call, hcall, houtcome⟩ := snubbed_repeats
  unfold snubbed at hok hcall ⊢
  obtain ⟨-, happlies⟩ :=
    updateAll_applies Simulator.powerOn Reluctant.mk [gainRequest] htext hsettings
  rcases happlies hok call hcall with haccepted | ⟨e, id, rejected, he, -, -, hcalls, -, hstamp⟩
  · rw [houtcome] at haccepted
    cases haccepted
  · obtain rfl := Except.error.inj (houtcome.symm.trans he)
    exact ⟨⟨candidate, settings, htext, hsettings⟩, hok, hcalls, id, hstamp⟩

end Device

end DeviceConfig
