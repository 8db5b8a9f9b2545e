/-
Parameters are taken out as a whole or not at all.

The extractors write into a copy, one after the other, and each may have written something before it
fails.  The copy becomes the value only if all of them have succeeded.  Whatever goes wrong, be it
the text, the path or one of the extractors, the value stays what it was and the error is kept
together with the id of its request.

So after any calls the value is what the accepted ones have made of it, in their order, and an error
is kept exactly if the last call was rejected.  When a call comes from an update, the id is that of
the update's request: it is in the stamp of the settings, and the settings can be read whatever
numbers they hold.
-/
import DeviceConfig.Proofs.Delivery
import DeviceConfig.Proofs.Fidelity
import DeviceConfig.Proofs.Placement
import DeviceConfig.Proofs.Rereading

namespace DeviceConfig

namespace Parameters

variable {α S : Type}

/-! ### One run of the extractors -/

/-- What some extractors make of a value, one after the other. -/
def extracted (parameters : Object) (fs : List (Extractor α)) (a : α) : α :=
  fs.foldl (fun a f => (f parameters a).2) a

/-- Every extractor succeeds on what those before it have made of a value. -/
def Succeed (parameters : Object) (fs : List (Extractor α)) (a : α) : Prop :=
  ∀ before f after, fs = before ++ f :: after →
    (f parameters (extracted parameters before a)).1 = .ok ()

theorem succeed_nil (parameters : Object) (a : α) : Succeed parameters [] a := by
  intro before f after h
  cases before <;> cases h

theorem succeed_cons {parameters : Object} {f : Extractor α} {fs : List (Extractor α)} {a : α} :
    Succeed parameters (f :: fs) a ↔
      (f parameters a).1 = .ok () ∧ Succeed parameters fs (f parameters a).2 := by
  constructor
  · intro h
    exact ⟨h [] f fs rfl, fun before g after hfs => h (f :: before) g after (congrArg _ hfs)⟩
  · rintro ⟨hf, hfs⟩ before g after h
    cases before with
    | nil =>
        obtain ⟨rfl, rfl⟩ := List.cons.inj h
        exact hf
    | cons f before =>
        obtain ⟨rfl, hrest⟩ := List.cons.inj h
        exact hfs before g after hrest

/-- A run succeeds if every extractor does, and gives what the last of them leaves. -/
theorem run_eq_ok {parameters : Object} {fs : List (Extractor α)} {a b : α} :
    run parameters fs a = .ok b ↔ Succeed parameters fs a ∧ b = extracted parameters fs a := by
  induction fs generalizing a with
  | nil =>
      constructor
      · intro h
        exact ⟨succeed_nil parameters a, (Except.ok.inj h).symm⟩
      · rintro ⟨-, rfl⟩
        rfl
  | cons f fs ih =>
      rw [succeed_cons, run]
      cases hf : f parameters a with
      | mk verdict next =>
          have hextracted : extracted parameters (f :: fs) a = extracted parameters fs next := by
            rw [extracted, List.foldl_cons, hf]
            rfl
          rw [hextracted]
          cases verdict with
          | ok _ => simpa using ih
          | error message => simp

/-- A run fails with the error of the first extractor that does. -/
theorem run_eq_error {parameters : Object} {fs : List (Extractor α)} {a : α} {message : String}
    (h : run parameters fs a = .error message) : ∃ before f after, fs = before ++ f :: after ∧
      Succeed parameters before a ∧
      (f parameters (extracted parameters before a)).1 = .error message := by
  induction fs generalizing a with
  | nil => cases h
  | cons f fs ih =>
      rw [run] at h
      cases hf : f parameters a with
      | mk verdict next =>
          rw [hf] at h
          cases verdict with
          | error text =>
              refine ⟨[], f, fs, rfl, succeed_nil parameters a, ?_⟩
              show (f parameters a).1 = _
              rw [hf]
              exact congrArg Except.error (Except.error.inj h)
          | ok _ =>
              obtain ⟨before, g, after, rfl, hbefore, hg⟩ := ih h
              have hnext : (f parameters a).2 = next := congrArg Prod.snd hf
              refine ⟨f :: before, g, after, rfl, ?_, ?_⟩
              · rw [succeed_cons, hnext]
                exact ⟨congrArg Prod.fst hf, hbefore⟩
              · rw [extracted, List.foldl_cons, hnext]
                exact hg

/-! ### One call -/

/-- The parameters of a model in a text, if there are any. -/
def parametersIn? (model text : String) : Option Object := (Json.ofText? text).bind (find? model)

/-- What a text makes of a value. -/
def taken (model : String) (fs : List (Extractor α)) (text : String) (a : α) : α :=
  extracted ((parametersIn? model text).getD []) fs a

/-- The id in the stamp of a text; empty if there is none. -/
def requestIdIn (text : String) : String :=
  (((Json.ofText? text).bind (Json.under? ["res_info", "res_id"])).bind Json.string?).getD ""

theorem requestId_eq (settings : Json) :
    requestId settings = ((settings.under? ["res_info", "res_id"]).bind Json.string?).getD "" := by
  have hsteps : (Json.Pointer.cut "res_info/res_id".toList).map Json.Pointer.unescape =
      ["res_info", "res_id"].map String.toList := by decide
  have hkeys : ∀ key ∈ ["res_info", "res_id"], Json.Pointer.index? key.toList = none := by
    decide
  show ((Json.Pointer.follow? ((Json.Pointer.cut "res_info/res_id".toList).map
    Json.Pointer.unescape) settings).bind Json.string?).getD "" = _
  rw [hsteps, Json.Pointer.follow?_keys hkeys]

theorem requestIdIn_of_ofText? {text : String} {settings : Json}
    (h : Json.ofText? text = some settings) : requestIdIn text = requestId settings := by
  rw [requestIdIn, h, requestId_eq]
  rfl

/-- What a call answers and leaves, in either case. -/
structure Answered (p : Parameters α) (text : String) (answer : Verdict × Parameters α) :
    Prop where
  /-- It is accepted if the text holds parameters and every extractor succeeds on them. -/
  accepts : answer.1 = .ok () ↔
    ∃ parameters, parametersIn? p.model text = some parameters ∧
      Succeed parameters p.extractors p.value
  taken : answer.1 = .ok () →
    answer.2 = ⟨p.model, p.extractors, taken p.model p.extractors text p.value, none⟩
  /-- Otherwise only the error is kept. -/
  kept : ∀ e, answer.1 = .error e → e.code = .invalidArgument ∧
    answer.2 = ⟨p.model, p.extractors, p.value,
      some ⟨⟨requestIdIn text, e.code.toWord, e.message⟩⟩⟩
  /-- If there are parameters, it is the error of the first extractor that fails. -/
  first : ∀ e parameters, answer.1 = .error e → parametersIn? p.model text = some parameters →
    ∃ before f after, p.extractors = before ++ f :: after ∧
      Succeed parameters before p.value ∧
      (f parameters (extracted parameters before p.value)).1 = .error e.message

theorem answered_reject {p : Parameters α} {text message : String}
    (hfails : ∀ parameters, parametersIn? p.model text = some parameters →
      run parameters p.extractors p.value = .error message) :
    Answered p text (p.reject (requestIdIn text) message) where
  accepts := by
    constructor
    · intro h
      cases h
    · rintro ⟨parameters, hfound, hsucceed⟩
      have hrun := run_eq_ok.mpr ⟨hsucceed, rfl⟩
      rw [hfails parameters hfound] at hrun
      cases hrun
  taken h := by cases h
  kept e h := by
    obtain rfl := Except.error.inj h
    exact ⟨rfl, rfl⟩
  first e parameters h hfound := by
    obtain rfl := Except.error.inj h
    exact run_eq_error (hfails parameters hfound)

/-- Every call is answered in this way. -/
theorem answered_configure (p : Parameters α) (text : String) :
    Answered p text (p.configure text) := by
  cases htext : Json.ofText? text with
  | none =>
      have hnone : parametersIn? p.model text = none := by rw [parametersIn?, htext]; rfl
      have hid : requestIdIn text = "" := by rw [requestIdIn, htext]; rfl
      have hconfigure : p.configure text =
          p.reject (requestIdIn text) "Error parsing custom settings JSON" := by
        rw [configure, htext, hid]
      rw [hconfigure]
      refine answered_reject fun parameters hfound => ?_
      rw [hnone] at hfound
      cases hfound
  | some settings =>
      have hin : parametersIn? p.model text = find? p.model settings := by
        rw [parametersIn?, htext]
        rfl
      have hid := requestIdIn_of_ofText? htext
      cases hfind : find? p.model settings with
      | none =>
          rw [configure_of_missing htext hfind, ← hid]
          refine answered_reject fun parameters hfound => ?_
          rw [hin, hfind] at hfound
          cases hfound
      | some parameters =>
          rw [configure_of_found htext hfind, ← hid]
          cases hrun : run parameters p.extractors p.value with
          | error message =>
              refine answered_reject fun found hfound => ?_
              rw [hin, hfind] at hfound
              obtain rfl := Option.some.inj hfound
              exact hrun
          | ok value =>
              obtain ⟨hsucceed, rfl⟩ := run_eq_ok.mp hrun
              have htaken : taken p.model p.extractors text p.value =
                  extracted parameters p.extractors p.value := by
                rw [taken, hin, hfind]
                rfl
              exact {
                accepts := ⟨fun _ => ⟨parameters, hin.trans hfind, hsucceed⟩, fun _ => rfl⟩
                taken := fun _ => by rw [htaken]
                kept := fun e h => by cases h
                first := fun e found h => by cases h }

/-! ### A run of calls -/

/-- The calls of a run, each with its topic and its text. -/
def configureAll (inputs : List (String × String)) (r : HookRecorder (Parameters α)) :
    HookRecorder (Parameters α) :=
  inputs.foldl (fun r input => (Hook.configure r input.1 input.2).2) r

/-- The calls that were accepted. -/
def acceptedCalls (calls : List Call) : List Call := calls.filter (·.outcome = .ok ())

/-- The state of some parameters follows from the calls that have been made. -/
structure Follows (start : Parameters α) (r : HookRecorder (Parameters α)) : Prop where
  model : r.hook.model = start.model
  extractors : r.hook.extractors = start.extractors
  /-- The value is what the accepted calls have made of it, in their order. -/
  value : r.hook.value = (acceptedCalls r.calls).foldl
    (fun value call => taken start.model start.extractors call.settings value) start.value
  /-- An error is shown exactly if the last call was rejected. -/
  errorText : r.hook.errorText? = none ↔ ∀ call ∈ r.calls.getLast?, call.outcome = .ok ()

/-- A call is recorded with its answer, and the state still follows. -/
theorem Follows.configure {start : Parameters α} {r : HookRecorder (Parameters α)}
    (h : Follows start r) (topic text : String) :
    Follows start (Hook.configure r topic text).2 := by
  have hanswered := answered_configure r.hook text
  have hafter : (Hook.configure r topic text).2 = ⟨(r.hook.configure text).2,
      r.calls ++ [⟨topic, text, (r.hook.configure text).1⟩]⟩ := rfl
  cases hverdict : (r.hook.configure text).1 with
  | ok _ =>
      have hcalls : acceptedCalls (r.calls ++ [⟨topic, text, .ok ()⟩]) =
          acceptedCalls r.calls ++ [⟨topic, text, .ok ()⟩] := by
        simp [acceptedCalls]
      rw [hafter, hverdict, hanswered.taken hverdict]
      refine ⟨h.model, h.extractors, ?_, ?_⟩
      · show taken r.hook.model r.hook.extractors text r.hook.value = _
        rw [hcalls, List.foldl_append, ← h.value, h.model, h.extractors]
        rfl
      · simp [errorText?]
  | error e =>
      have hcalls : acceptedCalls (r.calls ++ [⟨topic, text, .error e⟩]) =
          acceptedCalls r.calls := by
        simp [acceptedCalls]
      rw [hafter, hverdict, (hanswered.kept e hverdict).2]
      refine ⟨h.model, h.extractors, ?_, ?_⟩
      · rw [hcalls]
        exact h.value
      · simp [errorText?]

theorem follows_configureAll (inputs : List (String × String)) :
    ∀ {start : Parameters α} {r : HookRecorder (Parameters α)}, Follows start r →
      Follows start (configureAll inputs r) := by
  induction inputs with
  | nil => exact fun h => h
  | cons input rest ih => exact fun h => ih (h.configure input.1 input.2)

theorem calls_configureAll (inputs : List (String × String)) :
    ∀ r : HookRecorder (Parameters α),
      (configureAll inputs r).calls.map (fun call => (call.topic, call.settings)) =
        r.calls.map (fun call => (call.topic, call.settings)) ++ inputs := by
  induction inputs with
  | nil => exact fun r => (List.append_nil _).symm
  | cons input rest ih =>
      intro r
      obtain ⟨topic, text⟩ := input
      have hafter : (Hook.configure r topic text).2.calls =
          r.calls ++ [⟨topic, text, (r.hook.configure text).1⟩] := rfl
      refine (ih _).trans ?_
      rw [hafter, List.map_append, List.append_assoc]
      rfl

/-! ### Calls that come from updates -/

/-- Settings that are handed over can be read, and carry the id of their request. -/
theorem requestIdIn_handed {settings : Object}
    (h : (Json.object settings).Legible Custom.maxDepth) (id : String) :
    requestIdIn (Custom.handed id settings) = id := by
  let stamped := Json.object (Custom.stamp (Custom.accepted id) settings)
  have hstamp : stamped.under? ["res_info", "res_id"] = some (.string id) := by
    have hinfo := Custom.field?_stamp (Custom.accepted id) settings
    rw [Custom.stampField] at hinfo
    rw [Json.under?_object, hinfo, Option.bind_some, Record.toJson,
      Json.under?_ofMembers (by simp) List.mem_cons_self]
    rfl
  have hlegible : stamped.Legible Written.maxDepth :=
    (Custom.legible_stamp h (Custom.accepted id)).mono (by decide)
  obtain ⟨back, hback⟩ := Option.isSome_iff_exists.mp stamped.isSome_reread?
  rw [requestIdIn, Custom.handed, Json.ofText?_text hlegible, hback, Option.bind_some,
    Json.under?_of_reread? _ hback, hstamp]
  rfl

/-- An update whose settings are rejected leaves the parameters with its own id. -/
theorem update_rejected [Sensor S] {d : Document} {text : String} {state : ProcessState}
    {k : Collaborators S (HookRecorder (Parameters α))} {call : Call} {e : ConfigError}
    (hcall : (d.update state text k).collaborators.hook.calls = k.hook.calls ++ [call])
    (he : call.outcome = .error e) :
    ∃ candidate, Object.ofText? text = some candidate ∧
      (d.update state text k).collaborators.hook.hook =
        ⟨k.hook.hook.model, k.hook.hook.extractors, k.hook.hook.value,
          some ⟨⟨(d.update state text k).document.request.id, e.code.toWord,
            e.message⟩⟩⟩ := by
  cases hnew : d.newSettings? text with
  | none =>
      rw [(Document.update_of_nothing_new hnew state k).2] at hcall
      simp at hcall
  | some settings =>
      obtain ⟨candidate, htext, -, hsettings, -⟩ := Document.newSettings?_eq_some.mp hnew
      have hlegible := Document.legible_object? htext hsettings
      obtain ⟨-, hhook, -⟩ := Document.update_of_new hnew state k
      rw [hhook] at hcall ⊢
      obtain rfl := List.singleton_inj.mp (List.append_cancel_left hcall)
      obtain ⟨-, hkept⟩ := (answered_configure k.hook.hook _).kept e he
      rw [requestIdIn_handed hlegible] at hkept
      exact ⟨candidate, htext, hkept⟩

/-! ### All or nothing -/

/-- **Parameters are taken out as a whole or not at all.**  After any calls the value is what the
accepted ones have made of it, each by all the extractors in their order, and an error is shown
exactly if the last call was rejected.  A further call is accepted if the text holds parameters and
every extractor succeeds on them; then the value is replaced, and no error is left.  Otherwise
nothing changes but the error that is kept: it has the message and the code of the answer, and the
id in the text's stamp.  Where there are parameters, the message is that of the first extractor that
fails, whatever those before it have written.  If the call comes from an update, the id is that of
the update's request. -/
theorem configureAll_all_or_nothing [Sensor S] (model : String) (extractors : List (Extractor α))
    (value : α) (inputs : List (String × String)) :
    let run := configureAll inputs ⟨⟨model, extractors, value, none⟩, []⟩
    let p := run.hook
    run.calls.map (fun call => (call.topic, call.settings)) = inputs ∧
      p.value = (acceptedCalls run.calls).foldl
        (fun value call => taken model extractors call.settings value) value ∧
      (p.errorText? = none ↔ ∀ call ∈ run.calls.getLast?, call.outcome = .ok ()) ∧
      (∀ text, (p.configure text).1 = .ok () ↔
        ∃ parameters, parametersIn? model text = some parameters ∧
          Succeed parameters extractors p.value) ∧
      (∀ text, (p.configure text).1 = .ok () → (p.configure text).2 =
        ⟨model, extractors, taken model extractors text p.value, none⟩) ∧
      (∀ text e, (p.configure text).1 = .error e → e.code = .invalidArgument ∧
        (p.configure text).2 = ⟨model, extractors, p.value,
          some ⟨⟨requestIdIn text, e.code.toWord, e.message⟩⟩⟩) ∧
      (∀ text e parameters, (p.configure text).1 = .error e →
        parametersIn? model text = some parameters →
          ∃ before f after, extractors = before ++ f :: after ∧
            Succeed parameters before p.value ∧
            (f parameters (extracted parameters before p.value)).1 = .error e.message) ∧
      ∀ (d : Document) (state : ProcessState) (text : String)
        (k : Collaborators S (HookRecorder (Parameters α))) (call : Call) (e : ConfigError),
        let u := d.update state text k
        k.hook.hook = p → u.collaborators.hook.calls = k.hook.calls ++ [call] →
          call.outcome = .error e → ∃ candidate, Object.ofText? text = some candidate ∧
            u.document.request.id = d.idAfter candidate ∧
            u.collaborators.hook.hook = ⟨model, extractors, p.value,
              some ⟨⟨u.document.request.id, e.code.toWord, e.message⟩⟩⟩ := by
  intro run p
  have hstart : Follows ⟨model, extractors, value, none⟩
      (⟨⟨model, extractors, value, none⟩, []⟩ : HookRecorder (Parameters α)) := by
    refine ⟨rfl, rfl, rfl, ?_⟩
    simp [errorText?]
  have hrun := follows_configureAll inputs hstart
  have hmodel : p.model = model := hrun.model
  have hextractors : p.extractors = extractors := hrun.extractors
  refine ⟨?_, hrun.value, hrun.errorText, fun text => ?_, fun text h => ?_, fun text e h => ?_,
    fun text e parameters h hfound => ?_, ?_⟩
  · exact calls_configureAll inputs _
  · rw [(answered_configure p text).accepts, hmodel, hextractors]
  · rw [(answered_configure p text).taken h, hmodel, hextractors]
  · obtain ⟨hcode, hkept⟩ := (answered_configure p text).kept e h
    rw [hkept, hmodel, hextractors]
    exact ⟨hcode, rfl⟩
  · have hfirst := (answered_configure p text).first e parameters h (hmodel ▸ hfound)
    rwa [hextractors] at hfirst
  · intro d state text k call e u hhook hcall he
    obtain ⟨candidate, htext, hkept⟩ := update_rejected hcall he
    refine ⟨candidate, htext, (Document.update_taken htext state k d).1, ?_⟩
    rw [hkept, hhook, hmodel, hextractors]

/-- What the first extractor has written is lost when the second fails. -/
example :
    let p : Parameters Object := ⟨"m", [Extractor.long "a", Extractor.long "b"], [], none⟩
    let answer := p.configure (Json.ofMembers [("ai_models", .ofMembers [("m",
      .ofMembers [("parameters", .ofMembers [("a", .word 1)])])])]).text
    answer.1 = .error (.configure .invalidArgument "b missing") ∧ answer.2.value.length = 0 ∧
      answer.2.lastError = some ⟨⟨"", 3, "b missing"⟩⟩ := by decide +kernel

end Parameters

end DeviceConfig
