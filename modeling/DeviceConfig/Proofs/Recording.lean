/-
Who is to blame for a failure.

Two runs of one application are followed side by side: one with the collaborators as they are,
and one in which every write to the sensor and every call of the application is recorded.  The
record makes no difference to anything else.  If a section of a readable candidate fails, there
is a refusal in the record that the error comes from: there is nothing else that could fail.
-/
import DeviceConfig.Proofs.Checks
import DeviceConfig.Proofs.Device
import DeviceConfig.Proofs.Steps

namespace DeviceConfig

variable {α β γ S H : Type}

/-! ### Side by side -/

/-- The cycle without the record. -/
def Cycle.plain (c : Cycle (Recorder S) (HookRecorder H)) : Cycle S H :=
  ⟨c.reply, c.sensor.sensor, c.hook.hook, c.state, c.requestId, c.requests⟩

/-- The progress without the record. -/
def Progress.plain (p : Progress α (Recorder S) (HookRecorder H)) : Progress α S H :=
  ⟨p.value, p.cycle.plain, p.outcome⟩

/-- The error is how a cycle reports that the write was refused. -/
def Write.Caused (w : Write) (e : ConfigError) : Prop :=
  ∃ r failure, w.outcome = .error r ∧ e = .sensor r.code failure

/-- The first step is the second one with a record, and a failure can be accounted for by the
writes that have been recorded. -/
structure Step.Accounts (f : Step α (Recorder S) (HookRecorder H)) (g : Step α S H) : Prop where
  plain : ∀ a c, (f a c).plain = g a c.plain
  kept : ∀ a c, ∀ w ∈ c.sensor.writes, w ∈ (f a c).cycle.sensor.writes
  blamed : ∀ a c e, (f a c).outcome = .error e →
    ∃ w ∈ (f a c).cycle.sensor.writes, w.Caused e

namespace Step.Accounts

variable {f f' : Step α (Recorder S) (HookRecorder H)} {g g' : Step α S H}

/-- A step that leaves the sensor alone and does not fail. -/
theorem of_silent (hplain : ∀ a c, (f a c).plain = g a c.plain)
    (hsensor : ∀ a c, (f a c).cycle.sensor = c.sensor)
    (houtcome : ∀ a c, (f a c).outcome = .ok ()) : Accounts f g where
  plain := hplain
  kept a c w hw := by rwa [hsensor a c]
  blamed a c e he := by rw [houtcome a c] at he; cases he

theorem skip : Accounts (Step.skip : Step α (Recorder S) (HookRecorder H))
    (Step.skip : Step α S H) := of_silent (fun _ _ => rfl) (fun _ _ => rfl) fun _ _ => rfl

theorem whenSome {found : Option γ} {f : γ → Step α (Recorder S) (HookRecorder H)}
    {g : γ → Step α S H} (h : ∀ x, found = some x → Accounts (f x) (g x)) :
    Accounts (Step.whenSome found f) (Step.whenSome found g) := by
  cases found with
  | none => exact skip
  | some x => exact h x rfl

theorem become (new : α → α) :
    Accounts (Step.become new : Step α (Recorder S) (HookRecorder H))
      (Step.become new : Step α S H) := of_silent (fun _ _ => rfl) (fun _ _ => rfl) fun _ _ => rfl

theorem renew (same : α → Bool) (new : α → α) :
    Accounts (Step.renew same new : Step α (Recorder S) (HookRecorder H))
      (Step.renew same new : Step α S H) := by
  refine of_silent (fun a c => ?_) (fun a c => ?_) fun a c => ?_
  all_goals
    unfold Step.renew
    split <;> rfl

theorem store [BEq α] (new : α) :
    Accounts (Step.store new : Step α (Recorder S) (HookRecorder H))
      (Step.store new : Step α S H) := renew (· == new) fun _ => new

theorem on {f : Step β (Recorder S) (HookRecorder H)} {g : Step β S H} (h : Accounts f g)
    (part : α → β) (put : β → α → α) : Accounts (Step.on part put f) (Step.on part put g) where
  plain a c := by
    have hplain := h.plain (part a) c
    simp only [Step.on, Progress.plain, ← hplain]
  kept a c := h.kept (part a) c
  blamed a c := h.blamed (part a) c

theorem andThen (h : Accounts f g) (h' : Accounts f' g') :
    Accounts (Step.andThen f f') (Step.andThen g g') where
  plain a c := by
    have hfirst := h.plain a c
    have hsecond := h'.plain (f a c).value (f a c).cycle
    simp only [Step.andThen, Progress.plain, ← hfirst, ← hsecond]
  kept a c w hw := h'.kept _ _ w (h.kept a c w hw)
  blamed a c e he := by
    cases hsecond : (f' (f a c).value (f a c).cycle).outcome with
    | error e' =>
        simp only [Step.andThen, hsecond, Verdict.lastFailure] at he
        cases he
        exact h'.blamed _ _ e hsecond
    | ok _ =>
        simp only [Step.andThen, hsecond, Verdict.lastFailure] at he
        obtain ⟨w, hw, hcaused⟩ := h.blamed a c e he
        exact ⟨w, h'.kept _ _ w hw, hcaused⟩

theorem nil : Accounts (Step.all [] : Step α (Recorder S) (HookRecorder H))
    (Step.all [] : Step α S H) := skip

theorem cons (h : Accounts f g) {fs : List (Step α (Recorder S) (HookRecorder H))}
    {gs : List (Step α S H)} (hrest : Accounts (Step.all fs) (Step.all gs)) :
    Accounts (Step.all (f :: fs)) (Step.all (g :: gs)) := h.andThen hrest

theorem all_map {f : γ → Step α (Recorder S) (HookRecorder H)} {g : γ → Step α S H}
    {items : List γ} (h : ∀ x ∈ items, Accounts (f x) (g x)) :
    Accounts (Step.all (items.map f)) (Step.all (items.map g)) := by
  induction items with
  | nil => exact nil
  | cons x rest ih => exact (h x (by simp)).cons (ih fun y hy => h y (by simp [hy]))

/-- A step that depends on the value it is applied to. -/
theorem byValue {f : α → Step α (Recorder S) (HookRecorder H)} {g : α → Step α S H}
    (h : ∀ a, Accounts (f a) (g a)) : Accounts (fun a c => f a a c) (fun a c => g a a c) :=
  ⟨fun a c => (h a).plain a c, fun a c => (h a).kept a c, fun a c => (h a).blamed a c⟩

/-- A step that depends on the state of the device. -/
theorem byState {f : ProcessState → Step α (Recorder S) (HookRecorder H)}
    {g : ProcessState → Step α S H} (h : ∀ state, Accounts (f state) (g state)) :
    Accounts (fun a c => f c.state a c) (fun a c => g c.state a c) :=
  ⟨fun a c => (h c.state).plain a c, fun a c => (h c.state).kept a c,
    fun a c => (h c.state).blamed a c⟩

end Step.Accounts

/-! ### Pushes -/

/-- A recorded push has the outcome that it would have had, and is in the record with it. -/
theorem Cycle.push_recorded [Sensor S] (p : Property) (failure : String)
    (c : Cycle (Recorder S) (HookRecorder H)) :
    (∃ sensor,
      c.push p failure =
        (.ok (), { c with sensor := ⟨sensor, c.sensor.writes ++ [⟨p, .ok ()⟩]⟩ }) ∧
      c.plain.push p failure = (.ok (), { c.plain with sensor })) ∨
    ∃ r sensor,
      c.push p failure =
        (.error (.sensor r.code failure),
          { c with sensor := ⟨sensor, c.sensor.writes ++ [⟨p, .error r⟩]⟩ }) ∧
      c.plain.push p failure = (.error (.sensor r.code failure), { c.plain with sensor }) := by
  rcases hwrite : Sensor.write c.sensor.sensor p with ⟨outcome, sensor⟩
  have hrecorded : Sensor.write c.sensor p =
      (outcome, (⟨sensor, c.sensor.writes ++ [⟨p, outcome⟩]⟩ : Recorder S)) := by
    simp only [Sensor.write, hwrite]
  cases outcome with
  | ok _ =>
      exact .inl ⟨sensor, push_of_taken hrecorded failure,
        push_of_taken (c := c.plain) hwrite failure⟩
  | error r =>
      exact .inr ⟨r, sensor, push_of_refused hrecorded failure,
        push_of_refused (c := c.plain) hwrite failure⟩

/-- A push accounts for its own refusal, and then whatever follows it has to. -/
theorem Step.Accounts.afterPush [Sensor S] {taken : Step α (Recorder S) (HookRecorder H)}
    {taken' : Step α S H} (h : Accounts taken taken') (p : Property) (failure : String) :
    Accounts (Step.afterPush p failure taken) (Step.afterPush p failure taken') where
  plain a c := by
    unfold Step.afterPush
    rcases c.push_recorded p failure with ⟨sensor, hpush, hplain⟩ | ⟨r, sensor, hpush, hplain⟩
    · simp only [hpush, hplain]
      exact h.plain a _
    · simp only [hpush, hplain]
      rfl
  kept a c w hw := by
    unfold Step.afterPush
    rcases c.push_recorded p failure with ⟨sensor, hpush, -⟩ | ⟨r, sensor, hpush, -⟩
    · simp only [hpush]
      exact h.kept a _ w (List.mem_append_left _ hw)
    · simp only [hpush]
      exact List.mem_append_left _ hw
  blamed a c e he := by
    unfold Step.afterPush at he ⊢
    rcases c.push_recorded p failure with ⟨sensor, hpush, -⟩ | ⟨r, sensor, hpush, -⟩
    · simp only [hpush] at he ⊢
      exact h.blamed a _ e he
    · simp only [hpush] at he ⊢
      obtain rfl := Except.error.inj he
      exact ⟨⟨p, .error r⟩, List.mem_append_right _ List.mem_cons_self, r, failure, rfl, rfl⟩

/-! ### The sections -/

theorem Inference.apply_accounts (candidate : Object) :
    Step.Accounts (apply (S := Recorder S) (H := HookRecorder H) candidate)
      (apply (S := S) (H := H) candidate) := .whenSome fun _ _ => .store _

theorem Codec.apply_accounts (candidate : Object) :
    Step.Accounts (apply (S := Recorder S) (H := HookRecorder H) candidate)
      (apply (S := S) (H := H) candidate) := .whenSome fun _ _ => .store _

namespace Common

theorem requestState_accounts (candidate : Object) :
    Step.Accounts (requestState (S := Recorder S) (H := HookRecorder H) candidate)
      (requestState (S := S) (H := H) candidate) := by
  refine .of_silent (fun a c => ?_) (fun a c => ?_) fun a c => ?_
  all_goals
    unfold requestState
    split <;> rfl

theorem applyLogLevel_accounts (candidate : Object) :
    Step.Accounts (applyLogLevel (S := Recorder S) (H := HookRecorder H) candidate)
      (applyLogLevel (S := S) (H := H) candidate) := by
  unfold applyLogLevel
  cases Object.word? candidate "log_level" with
  | none => exact .of_silent (fun _ _ => rfl) (fun _ _ => rfl) fun _ _ => rfl
  | some w =>
      refine .of_silent (fun a c => ?_) (fun a c => ?_) fun a c => ?_
      all_goals by_cases h : w = a.logLevel <;> simp only [h, if_true, if_false] <;> rfl

theorem refuse_accounts (candidate : Object) :
    Step.Accounts (refuse (S := Recorder S) (H := HookRecorder H) candidate)
      (refuse (S := S) (H := H) candidate) := by
  refine .of_silent (fun a c => ?_) (fun a c => ?_) fun a c => ?_
  · by_cases h : c.state = .running ∧ a.changesStream candidate
    · simp only [refuse, Cycle.plain, h]
      rfl
    · simp only [refuse, Cycle.plain, h]
      rfl
  · unfold refuse
    split <;> rfl
  · unfold refuse
    split <;> rfl

end Common

section Sensors

variable [Sensor S]

theorem Scalar.apply_accounts (candidate : Object) (s : Scalar) :
    Step.Accounts (apply (S := Recorder S) (H := HookRecorder H) candidate s)
      (apply (S := S) (H := H) candidate s) := by
  refine .whenSome fun x _ => ?_
  rw [push_eq, push_eq]
  exact (Step.Accounts.renew _ _).afterPush _ _

theorem Structured.apply_accounts (candidate : Object) (s : Structured) :
    Step.Accounts (s.apply (S := Recorder S) (H := HookRecorder H) candidate)
      (s.apply (S := S) (H := H) candidate) := by
  refine Step.Accounts.byValue (f := fun known => s.push (s.description.merged candidate known))
    (g := fun known => s.push (s.description.merged candidate known)) fun known => ?_
  rw [push_eq, push_eq]
  exact (Step.Accounts.renew _ _).afterPush _ _

theorem RegisterWrite.push_accounts {v : Json} (h : (ofJson? v).isSome) :
    Step.Accounts (push (S := Recorder S) (H := HookRecorder H) v)
      (push (S := S) (H := H) v) := by
  obtain ⟨r, hr⟩ := Option.isSome_iff_exists.mp h
  rw [push_eq hr, push_eq hr]
  exact (Step.Accounts.become _).afterPush _ _

theorem RegisterWrite.apply_accounts {entries : List Json}
    (h : ∀ v ∈ entries, (ofJson? v).isSome) :
    Step.Accounts (apply (S := Recorder S) (H := HookRecorder H) entries)
      (apply (S := S) (H := H) entries) := by
  have hpushes : Step.Accounts
      (Step.all ((entries.take maxEntries).map (push (S := Recorder S) (H := HookRecorder H))))
      (Step.all ((entries.take maxEntries).map (push (S := S) (H := H)))) :=
    .all_map fun v hv => push_accounts (h v (List.mem_of_mem_take hv))
  constructor
  · intro old c
    have hplain := hpushes.plain [] c
    unfold apply
    simp only [← hplain]
    by_cases hsame : ((Step.all ((entries.take maxEntries).map push) [] c).value == old) = true
    · simp only [Progress.plain, hsame, if_true]
    · simp only [Progress.plain, hsame]
      rfl
  · intro old c w hw
    unfold apply
    simp only
    split <;> exact hpushes.kept [] c w hw
  · intro old c e he
    unfold apply
    simp only
    split <;> exact hpushes.blamed [] c e he

theorem Picture.apply_accounts {candidate : Object} (h : Readable candidate) :
    Step.Accounts (apply (S := Recorder S) (H := HookRecorder H) candidate)
      (apply (S := S) (H := H) candidate) := by
  refine .cons ?_ (.cons ?_ (.all_map fun s _ => ?_))
  · exact (Step.Accounts.all_map fun s _ => s.apply_accounts candidate).on _ _
  · refine .whenSome fun entries hentries => ?_
    exact (RegisterWrite.apply_accounts (h entries hentries).2).on _ _
  · exact .whenSome fun fragment _ => (s.apply_accounts fragment).on _ _

theorem Ports.apply_accounts (candidate : Object) :
    Step.Accounts (apply (S := Recorder S) (H := HookRecorder H) candidate)
      (apply (S := S) (H := H) candidate) := by
  rw [apply_eq, apply_eq]
  refine .byValue fun p => ?_
  split
  · exact .skip
  · exact (Step.Accounts.renew _ _).afterPush _ _

namespace Common

theorem applyAdmitted_accounts {candidate : Object} (h : Readable candidate) :
    Step.Accounts (applyAdmitted (S := Recorder S) (H := HookRecorder H) candidate)
      (applyAdmitted (S := S) (H := H) candidate) := by
  refine .cons ?_ (.cons ?_ (.cons ?_ (.cons ?_ (.cons ?_ .nil))))
  · exact .whenSome fun n _ => (Step.Accounts.store _).on _ _
  · exact .whenSome fun fragment _ => (Inference.apply_accounts fragment).on _ _
  · exact .whenSome fun fragment hfragment => (Picture.apply_accounts (h fragment hfragment)).on _ _
  · exact .whenSome fun fragment _ => (Ports.apply_accounts fragment).on _ _
  · exact .whenSome fun fragment _ => (Codec.apply_accounts fragment).on _ _

theorem apply_accounts {candidate : Object} (h : Readable candidate) :
    Step.Accounts (apply (S := Recorder S) (H := HookRecorder H) candidate)
      (apply (S := S) (H := H) candidate) := by
  refine .cons (requestState_accounts candidate) (.cons (applyLogLevel_accounts candidate)
    (.cons (refuse_accounts candidate) (.cons ?_ .nil)))
  exact .byState fun state => applyAdmitted_accounts (h.admitted state)

end Common

end Sensors

theorem Custom.apply_plain [Hook H] (candidate : Object) (a : Custom)
    (c : Cycle (Recorder S) (HookRecorder H)) :
    (apply candidate a c).plain = apply candidate a c.plain := by
  cases h : unchanged a.settings candidate with
  | true =>
      rw [apply_of_unchanged h, apply_of_unchanged h]
      rfl
  | false =>
      rw [apply_of_changed h, apply_of_changed h]
      rfl

/-- If the application's section fails, the application has answered a call with the error. -/
theorem Custom.apply_blamed [Hook H] {candidate : Object} {a : Custom}
    {c : Cycle (Recorder S) (HookRecorder H)} {e : ConfigError}
    (he : (apply candidate a c).outcome = .error e) :
    ∃ call ∈ (apply candidate a c).cycle.hook.calls, call.outcome = .error e := by
  cases h : unchanged a.settings candidate with
  | true =>
      rw [apply_of_unchanged h] at he
      cases he
  | false =>
      rw [apply_of_changed h] at he ⊢
      exact ⟨_, List.mem_append_right _ List.mem_cons_self, he⟩

/-! ### The document -/

namespace Document

/-- The update without the record. -/
def Updated.plain (u : Updated (Recorder S) (HookRecorder H)) : Updated S H :=
  ⟨u.document, ⟨u.collaborators.sensor.sensor, u.collaborators.hook.hook⟩, u.outcome⟩

theorem section?_plain {f : Object → Step α (Recorder S) (HookRecorder H)}
    {g : Object → Step α S H} {found : Option Object}
    (h : ∀ fragment, found = some fragment → ∀ a c, (f fragment a c).plain = g fragment a c.plain)
    (before : Verdict) (a : α) (c : Cycle (Recorder S) (HookRecorder H)) :
    (section? found f before a c).plain = section? found g before a c.plain := by
  cases found with
  | none => rfl
  | some fragment =>
      show (reporting (f fragment) a c).plain = reporting (g fragment) a c.plain
      rw [reporting_eq, reporting_eq, ← h fragment rfl a c]
      rfl

/-- A record makes no difference to an application, whatever is in it already. -/
theorem apply_plain [Sensor S] [Hook H] {candidate : Object}
    (hreadable : ∀ settings, Object.object? candidate "common_settings" = some settings →
      Common.Readable settings)
    (state : ProcessState) (k : Collaborators (Recorder S) (HookRecorder H)) (d : Document) :
    (d.apply state candidate k).plain =
      d.apply state candidate ⟨k.sensor.sensor, k.hook.hook⟩ := by
  have hcycle : (d.cycle state k).plain = d.cycle state ⟨k.sensor.sensor, k.hook.hook⟩ := rfl
  have hcommon := section?_plain (f := Common.apply) (g := Common.apply)
    (fun settings hsettings => (Common.apply_accounts (S := S) (H := H)
      (hreadable settings hsettings)).plain) (.ok ()) d.common (d.cycle state k)
  have hcustom := section?_plain (S := S) (H := H) (f := Custom.apply) (g := Custom.apply)
    fun settings (_ : Object.object? candidate "custom_settings" = some settings) =>
      Custom.apply_plain settings
  rw [hcycle] at hcommon
  simp only [apply, ← hcommon, Progress.plain, ← hcustom]
  rfl

theorem apply_recorded [Sensor S] [Hook H] {candidate : Object}
    (hreadable : ∀ settings, Object.object? candidate "common_settings" = some settings →
      Common.Readable settings)
    (state : ProcessState) (k : Collaborators S H) (d : Document) :
    (d.apply state candidate k.recorded).plain = d.apply state candidate k :=
  apply_plain hreadable state k.recorded d

/-- The attempt at the common section accounts for its failure. -/
theorem commonAttempt_blamed [Sensor S] {candidate : Object} {d : Document}
    (hreadable : ∀ settings, Object.object? candidate "common_settings" = some settings →
      Common.Readable settings)
    (c : Cycle (Recorder S) (HookRecorder H)) :
    (d.commonAttempt candidate c).map Progress.plain = d.commonAttempt candidate c.plain ∧
      ∀ p e, d.commonAttempt candidate c = some p → p.outcome = .error e →
        ∃ w ∈ p.cycle.sensor.writes, w.Caused e := by
  unfold commonAttempt
  cases hfound : Object.object? candidate "common_settings" with
  | none => exact ⟨rfl, fun p e hp _ => by cases hp⟩
  | some settings =>
      have h := Common.apply_accounts (S := S) (H := H) (hreadable settings hfound)
      refine ⟨congrArg some (h.plain d.common c), fun p e hp he => ?_⟩
      obtain rfl := Option.some.inj hp
      exact h.blamed d.common c e he

theorem customAttempt_blamed [Sensor S] [Hook H] {candidate : Object} {d : Document}
    (hreadable : ∀ settings, Object.object? candidate "common_settings" = some settings →
      Common.Readable settings)
    (c : Cycle (Recorder S) (HookRecorder H)) :
    (d.customAttempt candidate c).map Progress.plain = d.customAttempt candidate c.plain ∧
      ∀ p e, d.customAttempt candidate c = some p → p.outcome = .error e →
        ∃ call ∈ p.cycle.hook.calls, call.outcome = .error e := by
  let left := ((d.commonAttempt candidate c).map (·.cycle)).getD c
  have hleft : ((d.commonAttempt candidate c.plain).map (·.cycle)).getD c.plain = left.plain := by
    rw [← (commonAttempt_blamed hreadable c).1]
    simp only [left]
    cases d.commonAttempt candidate c <;> rfl
  unfold customAttempt
  rw [hleft]
  cases Object.object? candidate "custom_settings" with
  | none => exact ⟨rfl, fun p e hp _ => by cases hp⟩
  | some settings =>
      refine ⟨congrArg some (Custom.apply_plain settings d.custom left), fun p e hp he => ?_⟩
      obtain rfl := Option.some.inj hp
      exact Custom.apply_blamed he

/-- If neither section fails, the outcome is good, and only the refusal may be answered. -/
theorem answer_of_ok {common custom : Option Verdict}
    (hcommon : ∀ v, common = some v → v = .ok ())
    (hcustom : ∀ v, custom = some v → v = .ok ()) (refused : Bool) :
    custom.getD (common.getD (.ok ())) = .ok () ∧
      answer refused common custom =
        if refused then (.failedPrecondition, Common.refusal) else (.ok, "") := by
  cases common with
  | none => cases custom with
    | none => exact ⟨rfl, rfl⟩
    | some v => rw [hcustom v rfl]; exact ⟨rfl, rfl⟩
  | some w => cases custom with
    | none => rw [hcommon w rfl]; exact ⟨rfl, rfl⟩
    | some v => rw [hcommon w rfl, hcustom v rfl]; exact ⟨rfl, rfl⟩

/-- A failure of the common section is in the record of an application. -/
theorem apply_blames_sensor [Sensor S] [Hook H] {candidate : Object} {d : Document}
    (hreadable : ∀ settings, Object.object? candidate "common_settings" = some settings →
      Common.Readable settings) (hreply : d.reply.answer = (.ok, ""))
    {state : ProcessState} {k : Collaborators S H} {p : Progress Common S H} {e : ConfigError}
    (hp : d.commonAttempt candidate (d.cycle state k) = some p) (he : p.outcome = .error e) :
    ∃ w ∈ (d.apply state candidate k.recorded).collaborators.sensor.writes, w.Caused e := by
  obtain ⟨hplain, hblamed⟩ := commonAttempt_blamed (d := d) hreadable (d.cycle state k.recorded)
  obtain ⟨q, hq, rfl⟩ := Option.map_eq_some_iff.mp (hplain.trans hp)
  obtain ⟨w, hw, hcaused⟩ := hblamed q e hq he
  obtain ⟨-, -, -, -, hsensor, -⟩ := apply_attempts state candidate k.recorded d hreply
  refine ⟨w, ?_, hcaused⟩
  rw [hsensor, hq]
  exact hw

/-- A failure of the application's section is in the record of an application. -/
theorem apply_blames_hook [Sensor S] [Hook H] {candidate : Object} {d : Document}
    (hreadable : ∀ settings, Object.object? candidate "common_settings" = some settings →
      Common.Readable settings) (hreply : d.reply.answer = (.ok, ""))
    {state : ProcessState} {k : Collaborators S H} {p : Progress Custom S H} {e : ConfigError}
    (hp : d.customAttempt candidate (d.cycle state k) = some p) (he : p.outcome = .error e) :
    ∃ call ∈ (d.apply state candidate k.recorded).collaborators.hook.calls,
      call.outcome = .error e := by
  obtain ⟨hplain, hblamed⟩ := customAttempt_blamed (d := d) hreadable (d.cycle state k.recorded)
  obtain ⟨q, hq, rfl⟩ := Option.map_eq_some_iff.mp (hplain.trans hp)
  obtain ⟨call, hcall, houtcome⟩ := hblamed q e hq he
  obtain ⟨-, -, -, -, -, hhook⟩ := apply_attempts state candidate k.recorded d hreply
  refine ⟨call, ?_, houtcome⟩
  rw [hhook, hq]
  exact hcall

/-- If neither section fails, the outcome is good, and only the refusal may be answered. -/
theorem apply_of_ok [Sensor S] [Hook H] {candidate : Object} {d : Document}
    (hreply : d.reply.answer = (.ok, "")) {state : ProcessState} {k : Collaborators S H}
    (hcommon : ∀ p, d.commonAttempt candidate (d.cycle state k) = some p → p.outcome = .ok ())
    (hcustom : ∀ p, d.customAttempt candidate (d.cycle state k) = some p → p.outcome = .ok ()) :
    let u := d.apply state candidate k
    u.outcome = .ok () ∧ (u.document.reply.answer = (.ok, "") ∨
      state = .running ∧ u.document.reply.answer = (.failedPrecondition, Common.refusal)) := by
  intro u
  obtain ⟨houtcome, hanswer, -⟩ := apply_attempts state candidate k d hreply
  obtain ⟨hok, hrefusal⟩ := answer_of_ok
    (fun v (hv : (d.commonAttempt candidate (d.cycle state k)).map (·.outcome) = some v) => by
      obtain ⟨p, hp, rfl⟩ := Option.map_eq_some_iff.mp hv
      exact hcommon p hp)
    (fun v (hv : (d.customAttempt candidate (d.cycle state k)).map (·.outcome) = some v) => by
      obtain ⟨p, hp, rfl⟩ := Option.map_eq_some_iff.mp hv
      exact hcustom p hp) (d.refuses state candidate)
  refine ⟨houtcome.trans hok, ?_⟩
  have hreported := hanswer.trans hrefusal
  cases hrefuses : d.refuses state candidate with
  | false =>
      rw [hrefuses] at hreported
      exact .inl hreported
  | true =>
      rw [hrefuses] at hreported
      refine .inr ⟨?_, hreported⟩
      simp only [refuses, Bool.and_eq_true, decide_eq_true_eq] at hrefuses
      exact hrefuses.1

/-- **A document that passes can only fail through its collaborators.**  The error of the common
section is a refusal of the sensor, and that of the application's section is an answer of the
application.  If neither of them has refused anything, nothing fails, and the reply tells of
nothing but the refusal that a running device may give. -/
theorem update_blames [Sensor S] [Hook H] {d : Document} {text : String} {candidate : Object}
    (htext : Object.ofText? text = some candidate) (hverify : (d.verify candidate).1 = .ok ())
    (state : ProcessState) (k : Collaborators S H) :
    let u := d.update state text k
    let recorded := d.update state text k.recorded
    let writes := recorded.collaborators.sensor.writes
    let calls := recorded.collaborators.hook.calls
    let c := (d.taken candidate).cycle state k
    let common := d.commonAttempt candidate c
    let custom := d.customAttempt candidate c
    recorded.plain = u ∧
      (∀ p e, common = some p → p.outcome = .error e → ∃ w ∈ writes, w.Caused e) ∧
      (∀ p e, custom = some p → p.outcome = .error e →
        ∃ call ∈ calls, call.outcome = .error e) ∧
      ((∀ w ∈ writes, w.outcome = .ok ()) → (∀ call ∈ calls, call.outcome = .ok ()) →
        u.outcome = .ok () ∧ (∀ p, common = some p → p.outcome = .ok ()) ∧
          (∀ p, custom = some p → p.outcome = .ok ()) ∧
          ((u.document.reply.code, u.document.reply.detail) = (.ok, "") ∨
            state = .running ∧ (u.document.reply.code, u.document.reply.detail) =
              (.failedPrecondition, Common.refusal))) := by
  intro u recorded writes calls c common custom
  have hreadable : ∀ settings, Object.object? candidate "common_settings" = some settings →
      Common.Readable settings := fun _ => readable_of_passes hverify
  have hu : u = (d.taken candidate).apply state candidate k :=
    update_of_passed htext hverify state k
  have hheard : recorded = (d.taken candidate).apply state candidate k.recorded :=
    update_of_passed htext hverify state k.recorded
  have hcommonFails : ∀ p e, common = some p → p.outcome = .error e →
      ∃ w ∈ writes, w.Caused e := by
    intro p e hp he
    simp only [writes, hheard]
    exact apply_blames_sensor hreadable rfl hp he
  have hcustomFails : ∀ p e, custom = some p → p.outcome = .error e →
      ∃ call ∈ calls, call.outcome = .error e := by
    intro p e hp he
    simp only [calls, hheard]
    exact apply_blames_hook hreadable rfl hp he
  refine ⟨?_, hcommonFails, hcustomFails, fun hwrites hcalls => ?_⟩
  · rw [hheard, hu]
    exact apply_recorded hreadable state k (d.taken candidate)
  -- Whoever is to blame has refused something, and nothing has been refused.
  have hcommonOk : ∀ p, common = some p → p.outcome = .ok () := by
    refine fun p hp => Verdict.eq_ok_of_forall_ne fun e he => ?_
    obtain ⟨w, hw, r, failure, hrefused, -⟩ := hcommonFails p e hp he
    rw [hwrites w hw] at hrefused
    cases hrefused
  have hcustomOk : ∀ p, custom = some p → p.outcome = .ok () := by
    refine fun p hp => Verdict.eq_ok_of_forall_ne fun e he => ?_
    obtain ⟨call, hcall, hrefused⟩ := hcustomFails p e hp he
    rw [hcalls call hcall] at hrefused
    cases hrefused
  rw [hu]
  obtain ⟨houtcome, hanswer⟩ := apply_of_ok (d := d.taken candidate) rfl hcommonOk hcustomOk
  exact ⟨houtcome, hcommonOk, hcustomOk, hanswer⟩

/-- A request for a zoom and for a register write whose data is cut down to the register. -/
def writeRequest : String :=
  (Json.ofMembers [("req_info", .ofMembers [("req_id", .string "4")]),
    ("common_settings", .ofMembers [("pq_settings", .ofMembers
      [("digital_zoom", .word 2), ("register_access", .array [.ofMembers
        [("bit_length", .word 1), ("id", .word 2), ("address", .string "0x10"),
          ("data", .string "70000")]])])]),
    ("custom_settings", .ofMembers [("gain", .word 1)])]).text

/-- A request that passes and is refused nothing is answered without an error. -/
theorem update_blames_nobody :
    let u := Document.update .idle writeRequest obliging {}
    let heard := (Document.update .idle writeRequest obliging.recorded {}).collaborators
    (∃ candidate, Object.ofText? writeRequest = some candidate ∧
      (Document.verify candidate {}).1 = .ok ()) ∧
      heard.sensor.writes.map (·.property.key) = [.digitalZoom, .registerAccess] ∧
      (∀ w ∈ heard.sensor.writes, w.outcome = .ok ()) ∧
      heard.hook.calls.map (·.outcome) = [.ok ()] ∧ u.outcome = .ok () ∧
      (u.document.reply.code, u.document.reply.detail) = (.ok, "") := by
  have hrun : (Object.ofText? writeRequest).any (fun candidate =>
      let heard := (updateWith .idle candidate obliging.recorded {}).collaborators
      decide ((Document.verify candidate {}).1 = .ok ()) &&
        decide (heard.sensor.writes.map (·.property.key) = [.digitalZoom, .registerAccess]) &&
        heard.sensor.writes.all (·.outcome.isOk) &&
        decide (heard.hook.calls.map (·.outcome) = [.ok ()])) = true := by
    decide +kernel
  obtain ⟨candidate, htext, hcandidate⟩ := (Option.any_eq_true _ _).mp hrun
  simp only [Bool.and_eq_true, decide_eq_true_eq, List.all_eq_true] at hcandidate
  rw [← update_of_object htext] at hcandidate
  obtain ⟨⟨⟨hverify, hkeys⟩, htaken⟩, hcalls⟩ := hcandidate
  have hwrites : ∀ w ∈ (Document.update .idle writeRequest obliging.recorded
      {}).collaborators.sensor.writes, w.outcome = .ok () := by
    intro w hw
    have hok := htaken w hw
    cases houtcome : w.outcome with
    | ok _ => rfl
    | error r => rw [houtcome] at hok; cases hok
  have hanswers : ∀ call ∈ (Document.update .idle writeRequest obliging.recorded
      {}).collaborators.hook.calls, call.outcome = .ok () := by
    intro call hcall
    have hmem := List.mem_map_of_mem (f := Call.outcome) hcall
    rw [hcalls] at hmem
    exact List.mem_singleton.mp hmem
  obtain ⟨-, -, -, h⟩ := update_blames htext hverify .idle obliging
  obtain ⟨houtcome, -, -, hreply⟩ := h hwrites hanswers
  refine ⟨⟨candidate, htext, hverify⟩, hkeys, hwrites, hcalls, houtcome, ?_⟩
  rcases hreply with hreply | ⟨hrunning, -⟩
  · exact hreply
  · cases hrunning

end Document

end DeviceConfig
