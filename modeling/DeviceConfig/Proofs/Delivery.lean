/-
When the application is told.

Settings are compared with those that are stored, and both without their stamps.  An update hands
its settings over if they differ and the candidate passes, and it does so once; otherwise the
application hears nothing of it, and the stored settings keep the stamp that they have.

What is stored after a call are the settings of that call, whatever the application has made of
them.  So the next settings to be handed over are compared with the last ones that were, and in
the whole history of a document no two that follow one another are the same.  The history is kept
apart from the calls, since a call only carries a text.
-/
import Mathlib.Data.List.Chain
import DeviceConfig.Proofs.Application

namespace DeviceConfig

variable {S H : Type}

namespace Document

/-! ### One update -/

/-- The settings that an update hands over: those of a text that passes, if they are new. -/
def newSettings? (text : String) (d : Document) : Option Object :=
  (d.sectionOf? "custom_settings" text).filter fun settings =>
    !Custom.unchanged d.custom.settings settings

theorem newSettings?_eq_some {d : Document} {text : String} {settings : Object} :
    d.newSettings? text = some settings ↔
      ∃ candidate, Object.ofText? text = some candidate ∧ (d.verify candidate).1 = .ok () ∧
        Object.object? candidate "custom_settings" = some settings ∧
        Custom.unchanged d.custom.settings settings = false := by
  rw [newSettings?, Option.filter_eq_some_iff, sectionOf?_eq_some, Bool.not_eq_true']
  constructor
  · rintro ⟨⟨candidate, htext, hverify, hsettings⟩, hnew⟩
    exact ⟨candidate, htext, hverify, hsettings, hnew⟩
  · rintro ⟨candidate, htext, hverify, hsettings, hnew⟩
    exact ⟨⟨candidate, htext, hverify, hsettings⟩, hnew⟩

/-- Settings that are new are handed over once, and kept with the answer in their stamp. -/
theorem update_of_new [Sensor S] [Hook H] {d : Document} {text : String} {settings : Object}
    (h : d.newSettings? text = some settings) (state : ProcessState)
    (k : Collaborators S (HookRecorder H)) :
    let u := d.update state text k
    let given := Custom.handed u.document.request.id settings
    let answer := Hook.configure k.hook.hook "custom_settings" given
    u.document.custom = ⟨Custom.kept u.document.request.id settings answer.1⟩ ∧
      u.collaborators.hook =
        ⟨answer.2, k.hook.calls ++ [⟨"custom_settings", given, answer.1⟩]⟩ ∧
      u.outcome = answer.1 := by
  intro u given answer
  obtain ⟨hsettings, hnew⟩ := Option.filter_eq_some_iff.mp h
  have hchanged : ¬ Custom.unchanged d.custom.settings settings = true := by simpa using hnew
  have hdelivers : (u.document.custom, u.collaborators.hook, u.outcome) = _ :=
    (update_delivers hsettings state k).trans (if_neg hchanged)
  obtain ⟨hcustom, hrest⟩ := Prod.mk.inj hdelivers
  obtain ⟨hhook, houtcome⟩ := Prod.mk.inj hrest
  exact ⟨hcustom, hhook, houtcome⟩

/-- An update without new settings leaves the application and the stored settings alone. -/
theorem update_of_nothing_new [Sensor S] [Hook H] {d : Document} {text : String}
    (h : d.newSettings? text = none) (state : ProcessState) (k : Collaborators S H) :
    (d.update state text k).document.custom = d.custom ∧
      (d.update state text k).collaborators.hook = k.hook := by
  cases hsettings : d.sectionOf? "custom_settings" text with
  | none => exact (update_of_sectionOf?_none hsettings state k).2 rfl
  | some settings =>
      have hunchanged : Custom.unchanged d.custom.settings settings = true := by
        rw [newSettings?, hsettings, Option.filter_eq_none_iff] at h
        simpa using h settings rfl
      obtain ⟨hcustom, hhook, -⟩ := update_of_unchanged hsettings hunchanged state k
      exact ⟨hcustom, hhook⟩

/-! ### Histories -/

/-- What a run of updates hands over, oldest first: the settings, and the id of their request. -/
def handovers [Sensor S] [Hook H] :
    List (ProcessState × String) → Document → Collaborators S H → List (String × Object)
  | [], _, _ => []
  | (state, text) :: rest, d, k =>
    let u := d.update state text k
    match d.newSettings? text with
    | some settings =>
      (u.document.request.id, settings) :: handovers rest u.document u.collaborators
    | none => handovers rest u.document u.collaborators

theorem handovers_of_new [Sensor S] [Hook H] {d : Document} {text : String} {settings : Object}
    (h : d.newSettings? text = some settings) (state : ProcessState)
    (rest : List (ProcessState × String)) (k : Collaborators S H) :
    let u := d.update state text k
    handovers ((state, text) :: rest) d k =
      (u.document.request.id, settings) :: handovers rest u.document u.collaborators := by
  simp only [handovers, h]

theorem handovers_of_nothing_new [Sensor S] [Hook H] {d : Document} {text : String}
    (h : d.newSettings? text = none) (state : ProcessState)
    (rest : List (ProcessState × String)) (k : Collaborators S H) :
    let u := d.update state text k
    handovers ((state, text) :: rest) d k = handovers rest u.document u.collaborators := by
  simp only [handovers, h]

/-- What a call carries when some settings are handed over. -/
def handedOver (x : String × Object) : String × String :=
  ("custom_settings", Custom.handed x.1 x.2)

/-- Every handover of a run is a call, and there is no other call. -/
theorem calls_updateAll [Sensor S] [Hook H] (inputs : List (ProcessState × String)) :
    ∀ (d : Document) (k : Collaborators S (HookRecorder H)),
      (updateAll inputs d k).2.hook.calls.map (fun call => (call.topic, call.settings)) =
        k.hook.calls.map (fun call => (call.topic, call.settings)) ++
          (handovers inputs d k).map handedOver := by
  induction inputs with
  | nil =>
      intro d k
      simp [updateAll, handovers]
  | cons input rest ih =>
      obtain ⟨state, text⟩ := input
      intro d k
      let u := d.update state text k
      have hrest := ih u.document u.collaborators
      cases hnew : d.newSettings? text with
      | none =>
          rw [(update_of_nothing_new hnew state k).2] at hrest
          rw [handovers_of_nothing_new hnew]
          exact hrest
      | some settings =>
          rw [(update_of_new hnew state k).2.1, List.map_append, List.append_assoc] at hrest
          rw [handovers_of_new hnew]
          exact hrest

/-- No handover repeats the one before it.  The first of a run is compared with what is stored
then. -/
theorem isChain_handovers [Sensor S] [Hook H] (inputs : List (ProcessState × String)) :
    ∀ (d : Document) (k : Collaborators S (HookRecorder H)) (id : String) (settings : Object),
      Custom.bare settings = Custom.bare d.custom.settings →
        ((id, settings) :: handovers inputs d k).IsChain fun x y =>
          Custom.unchanged x.2 y.2 = false := by
  induction inputs with
  | nil =>
      intro d k id settings _
      exact List.IsChain.singleton _
  | cons input rest ih =>
      obtain ⟨state, text⟩ := input
      intro d k id settings hsettings
      let u := d.update state text k
      cases hnew : d.newSettings? text with
      | none =>
          rw [handovers_of_nothing_new hnew]
          refine ih u.document u.collaborators id settings ?_
          rw [(update_of_nothing_new hnew state k).1]
          exact hsettings
      | some new =>
          rw [handovers_of_new hnew]
          refine List.IsChain.cons_cons ?_ (ih u.document u.collaborators _ new ?_)
          · obtain ⟨-, -, -, -, hchanged⟩ := newSettings?_eq_some.mp hnew
            show Custom.unchanged settings new = false
            unfold Custom.unchanged at hchanged ⊢
            rw [hsettings]
            exact hchanged
          · rw [(update_of_new hnew state k).1]
            exact (Custom.bare_kept _ new _).symm

/-! ### What the application hears of a run -/

/-- **The application is told of settings exactly when they are new, and what is stored are the
settings that it was told last.**  After any updates of a fresh document, an update calls the
application if and only if its candidate passes and brings settings that differ from the stored
ones in more than the stamp.  The call carries these settings, stamped with the id of the request;
they are kept as they are, and their stamp tells what the application has answered.  Without a
call the stored settings stay as they are.  So no two calls in a row carry the same settings. -/
theorem run_hands_over [Sensor S] [Hook H] (sensor : S) (hook : H)
    (inputs : List (ProcessState × String)) :
    let start : Collaborators (Recorder S) (HookRecorder H) := ⟨⟨sensor, []⟩, ⟨hook, []⟩⟩
    let run := updateAll inputs {} start
    (run.1, ⟨run.2.sensor.sensor, run.2.hook.hook⟩) = updateAll inputs {} ⟨sensor, hook⟩ ∧
      run.2.hook.calls.map (fun call => (call.topic, call.settings)) =
        (handovers inputs {} start).map handedOver ∧
      ((handovers inputs {} start).IsChain fun x y => Custom.unchanged x.2 y.2 = false) ∧
      ∀ state text,
        let u := run.1.update state text run.2
        let id := u.document.request.id
        let Brings (settings : Object) : Prop :=
          ∃ candidate, Object.ofText? text = some candidate ∧
            (run.1.verify candidate).1 = .ok () ∧
            Object.object? candidate "custom_settings" = some settings ∧
            (Json.object (Object.erase "res_info" run.1.custom.settings) ==
              .object (Object.erase "res_info" settings)) = false
        (u.collaborators.hook.calls ≠ run.2.hook.calls ↔ ∃ settings, Brings settings) ∧
          (∀ settings, Brings settings → ∃ verdict,
            u.collaborators.hook.calls = run.2.hook.calls ++ [⟨"custom_settings",
              (Json.object (Object.insert "res_info" (Record.toJson ⟨id, 0, ""⟩) settings)).text,
              verdict⟩] ∧
            Object.erase "res_info" u.document.custom.settings =
              Object.erase "res_info" settings ∧
            Object.field? u.document.custom.settings "res_info" = some (Record.toJson <|
              match verdict with
              | .ok () => ⟨id, 0, ""⟩
              | .error e => ⟨id, e.code.toWord, e.message⟩)) ∧
          (u.collaborators.hook.calls = run.2.hook.calls →
            u.document.custom = run.1.custom) := by
  intro start run
  refine ⟨updateAll_plain inputs {} start, ?_, ?_, fun state text => ?_⟩
  · have hcalls := calls_updateAll inputs {} start
    rwa [List.map_nil, List.nil_append] at hcalls
  · have hchain := isChain_handovers inputs {} start "" [] rfl
    exact hchain.tail
  intro u id Brings
  have hbrings : ∀ settings, Brings settings ↔ run.1.newSettings? text = some settings :=
    fun _ => newSettings?_eq_some.symm
  have hcall : ∀ settings, Brings settings → ∃ verdict,
      u.collaborators.hook.calls = run.2.hook.calls ++
        [⟨"custom_settings", Custom.handed id settings, verdict⟩] ∧
      u.document.custom = ⟨Custom.kept id settings verdict⟩ := by
    intro settings h
    obtain ⟨hcustom, hhook, -⟩ := update_of_new ((hbrings settings).mp h) state run.2
    exact ⟨_, congrArg HookRecorder.calls hhook, hcustom⟩
  have hnone : (¬ ∃ settings, Brings settings) →
      u.document.custom = run.1.custom ∧ u.collaborators.hook = run.2.hook := by
    intro h
    refine update_of_nothing_new (Option.eq_none_iff_forall_ne_some.mpr ?_) state run.2
    exact fun settings hnew => h ⟨settings, (hbrings settings).mpr hnew⟩
  have hiff : u.collaborators.hook.calls ≠ run.2.hook.calls ↔ ∃ settings, Brings settings := by
    constructor
    · intro hcalls
      refine Classical.byContradiction fun h => ?_
      exact hcalls (congrArg HookRecorder.calls (hnone h).2)
    · rintro ⟨settings, h⟩
      obtain ⟨verdict, hcalls, -⟩ := hcall settings h
      rw [hcalls]
      simp
  refine ⟨hiff, fun settings h => ?_, fun hcalls => ?_⟩
  · obtain ⟨verdict, hcalls, hcustom⟩ := hcall settings h
    refine ⟨verdict, hcalls, ?_, ?_⟩
    · rw [hcustom]
      exact Custom.bare_kept id settings verdict
    · rw [hcustom]
      refine (Custom.field?_kept id settings verdict).trans ?_
      cases verdict <;> rfl
  · exact (hnone fun h => hiff.mpr h hcalls).1

/-- A gain with a stamp of the client's own. -/
def stampedGain (gain : UInt32) : String :=
  (Json.ofMembers [("req_info", .ofMembers [("req_id", .string "2")]),
    ("custom_settings", .ofMembers [("gain", .word gain),
      ("res_info", .ofMembers [("code", .word 7)])])]).text

/-- A document whose application has rejected a gain, with its collaborators. -/
def rebuffed : Document × Collaborators (Recorder Simulator) (HookRecorder Device.Reluctant) :=
  updateAll [(.idle, Device.gainRequest)] {} ⟨⟨.powerOn, []⟩, ⟨.mk, []⟩⟩

/-- What the application has rejected is not handed over again for a new stamp alone.  Another gain
is, and its stamp is that of the document. -/
theorem run_hands_over_stamped :
    (rebuffed.1.update .idle (stampedGain 1) rebuffed.2).document.custom = rebuffed.1.custom ∧
      Object.field? (rebuffed.1.update .idle (stampedGain 2) rebuffed.2).document.custom.settings
        "res_info" = some (Record.toJson ⟨"2", 10, "no"⟩) := by
  have hold : (rebuffed.1.newSettings? (stampedGain 1)).isNone = true := by decide +kernel
  have hnew : (rebuffed.1.newSettings? (stampedGain 2)).isSome = true := by decide +kernel
  have hid : (rebuffed.1.update .idle (stampedGain 2) rebuffed.2).document.request.id = "2" := by
    decide +kernel
  have hanswer : (rebuffed.1.update .idle (stampedGain 2)
      rebuffed.2).collaborators.hook.calls.getLast?.map (·.outcome) =
        some (.error (.configure .aborted "no")) := by decide +kernel
  unfold rebuffed at hold hnew hid hanswer ⊢
  obtain ⟨-, -, -, hupdates⟩ :=
    run_hands_over Simulator.powerOn Device.Reluctant.mk [(.idle, Device.gainRequest)]
  constructor
  · obtain ⟨hcalled, -, hquiet⟩ := hupdates .idle (stampedGain 1)
    refine hquiet (Classical.not_not.mp (mt hcalled.mp ?_))
    rintro ⟨settings, hbrings⟩
    rw [newSettings?_eq_some.mpr hbrings] at hold
    cases hold
  · obtain ⟨-, hcalled, -⟩ := hupdates .idle (stampedGain 2)
    obtain ⟨settings, hsettings⟩ := Option.isSome_iff_exists.mp hnew
    obtain ⟨verdict, hcalls, -, hstamp⟩ := hcalled settings (newSettings?_eq_some.mp hsettings)
    rw [hcalls, List.getLast?_concat] at hanswer
    obtain rfl := Option.some.inj hanswer
    rw [hstamp, hid]
    rfl

end Document

end DeviceConfig
