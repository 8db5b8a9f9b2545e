/-
What is asked of a device is asked once, and nothing of it is lost.

An update collects what it asks for in the document, and hands it over when it is done, so that
nothing is left there for the update after it.  What it hands over can be told from its own text
and the log level that was stored: a state if the text has one, and a log level if that is new.
The application may fail after that, and it makes no difference.

The log level is stored and asked for in one place, so the two go together: at any time, the level
that is stored is the last one that has been asked for.
-/
import DeviceConfig.Proofs.Working

namespace DeviceConfig

variable {S H : Type}

/-! ### What an update asks for -/

theorem LogLevel.toWord_ofWord {w : UInt32} (hw : w.toNat ≤ 5) : (ofWord w).toWord = w := by
  have hcases : w = 0 ∨ w = 1 ∨ w = 2 ∨ w = 3 ∨ w = 4 ∨ w = 5 := by
    simp only [← UInt32.toNat_inj, UInt32.reduceToNat]
    omega
  rcases hcases with rfl | rfl | rfl | rfl | rfl | rfl <;> rfl

/-- What is asked for is what the common section of a candidate says, given the log level that was
stored before and the one that is stored after. -/
structure Requests.Demanded (settings : Option Object) (before after : UInt32) (r : Requests) :
    Prop where
  /-- A state is asked for if the section has one, and it is one in which a device works. -/
  state : ∀ v, settings.bind (Object.field? · "process_state") = some v →
    ∃ s : WorkingState, v.word? = some s.toWord ∧ r.processState = some s.toState
  noState : settings.bind (Object.field? · "process_state") = none → r.processState = none
  /-- A log level is asked for if another one was stored, and it is the one that is stored now. -/
  level : r.logLevel.isSome ↔ after ≠ before
  stored : ∀ l, r.logLevel = some l → after = l.toWord
  /-- The log level that is stored is the one that the section has, if it has one. -/
  said : after = (settings.bind (Object.word? · "log_level")).getD before

/-- A working state is asked for by its own number only. -/
theorem ProcessState.toWord_of_requested {w : UInt32} {s : WorkingState}
    (h : requested w = s.toState) : w = s.toWord := by
  unfold requested at h
  split at h
  · cases s with
    | idle => assumption
    | running => cases h
  · split at h
    · cases s with
      | idle => cases h
      | running => assumption
    · split at h <;> cases s <;> cases h

theorem LogLevel.toNat_toWord_le (l : LogLevel) : l.toWord.toNat ≤ 5 := by
  cases l <;> decide

/-- The log level that is stored is the one that is asked for, or the one that was there. -/
theorem Requests.Demanded.logLevel_eq {settings : Option Object} {before after : UInt32}
    {r : Requests} (h : r.Demanded settings before after) :
    after = (r.logLevel.map LogLevel.toWord).getD before := by
  cases hl : r.logLevel with
  | none =>
      by_contra hne
      have hsome := h.level.mpr hne
      rw [hl] at hsome
      cases hsome
  | some l => exact h.stored l hl

namespace Common

variable {a : Common} {candidate : Object}

/-- A state in a candidate that passes is one in which a device works. -/
theorem working_of_check (h : a.check candidate = .ok ()) {v : Json}
    (hv : Object.field? candidate "process_state" = some v) :
    ∃ s : WorkingState, v.word? = some s.toWord ∧
      (Object.word? candidate "process_state").map ProcessState.requested = some s.toState := by
  have hnumber : Rule.number "process_state" ∈ rules := by simp [rules, Rule.range]
  have hkind : v.kind = .number :=
    eq_of_beq (Rule.admits_of_checkAll (Check.of_object h).1 hnumber hv)
  have hword : Object.word? candidate "process_state" = v.word? := by
    rw [Object.word?, hv, Option.bind_some]
  cases v with
  | number n =>
      obtain ⟨s, hs⟩ := requested_of_check h hword
      refine ⟨s, ?_, ?_⟩
      · rw [← ProcessState.toWord_of_requested hs]
        rfl
      · rw [hword, ← hs]
        rfl
  | _ => cases hkind

/-- A log level that a candidate brings in is not the one there is. -/
theorem isSome_newLogLevel? (candidate : Object) (a : Common) :
    (a.newLogLevel? candidate).isSome ↔
      (a.newLogLevel? candidate).getD a.logLevel ≠ a.logLevel := by
  cases hnew : a.newLogLevel? candidate with
  | none => simp
  | some w =>
      have hne := (Option.filter_eq_some_iff.mp hnew).2
      simpa using hne

/-- What a candidate that passes asks for is what it demands. -/
theorem asked_demanded (h : a.check candidate = .ok ()) (ha : a.logLevel.toNat ≤ 5) :
    (a.asked candidate {}).Demanded (some candidate) a.logLevel
      ((a.newLogLevel? candidate).getD a.logLevel) where
  state v hv := by
    simp only [asked, Option.or_none]
    exact working_of_check h hv
  noState hnone := by
    replace hnone : Object.field? candidate "process_state" = none := hnone
    simp only [asked, Option.or_none, Object.word?, hnone]
    rfl
  level := by
    simp only [asked, Option.or_none, Option.isSome_map]
    exact isSome_newLogLevel? candidate a
  stored l hl := by
    simp only [asked, Option.or_none, Option.map_eq_some_iff] at hl
    obtain ⟨w, hw, rfl⟩ := hl
    have hlevel := logLevel_of_check h ha
    rw [hw, Option.getD_some] at hlevel ⊢
    exact (LogLevel.toWord_ofWord hlevel).symm
  said := by
    unfold newLogLevel?
    rw [Option.bind_some]
    cases Object.word? candidate "log_level" with
    | none => rfl
    | some w => by_cases hw : w = a.logLevel <;> simp [Option.filter, hw]

end Common

theorem Requests.demanded_none (level : UInt32) : ({} : Requests).Demanded none level level where
  state v hv := by cases hv
  noState _ := rfl
  level := by simp
  stored l hl := by cases hl
  said := rfl

/-! ### Updates -/

namespace Device

/-- Nothing is left of what updates have asked for, and the log level is one that there is. -/
structure Answered (d : Device S H) : Prop where
  taken : d.document.requests = {}
  level : d.document.common.logLevel.toNat ≤ 5

variable [Sensor S] [Hook H] {d : Device S H}

/-- A rejected update asks for nothing, and the log level stays as it is. -/
theorem update_of_rejected (h : d.Answered) {text : String} (hrejects : d.document.Rejects text) :
    (d.update text).2.1 = {} ∧
      (d.update text).2.2.document.common.logLevel = d.document.common.logLevel := by
  obtain ⟨request, reply, e, hupdate, -⟩ :=
    Document.update_of_rejects hrejects d.current d.collaborators
  simp only [update, hupdate]
  exact ⟨h.taken, trivial⟩

/-- **An update that is accepted asks for what its candidate demands**, whatever becomes of it. -/
theorem update_of_accepted (h : d.Answered) {text : String} {candidate : Object}
    (htext : Object.ofText? text = some candidate)
    (hverify : (d.document.verify candidate).1 = .ok ()) :
    (d.update text).2.1.Demanded (Object.object? candidate "common_settings")
      d.document.common.logLevel (d.update text).2.2.document.common.logLevel := by
  have hasks := Document.apply_asks d.current candidate d.collaborators
    (d.document.taken candidate)
  have hbefore : (d.document.taken candidate).requests = {} := h.taken
  simp only [update, Document.update_of_passed htext hverify]
  cases hsettings : Object.object? candidate "common_settings" with
  | none =>
      simp only [hsettings, hbefore] at hasks
      rw [hasks.1, hasks.2]
      exact Requests.demanded_none d.document.common.logLevel
  | some settings =>
      simp only [hsettings, hbefore] at hasks
      obtain ⟨hrequests, -, hlevel⟩ := hasks
      rw [hrequests, hlevel]
      exact Common.asked_demanded (Document.common_passes hverify hsettings) h.level

/-- An update stores the log level that it asks for, and no other. -/
theorem update_logLevel (h : d.Answered) (text : String) :
    (d.update text).2.2.document.common.logLevel =
      ((d.update text).2.1.logLevel.map LogLevel.toWord).getD d.document.common.logLevel := by
  rcases d.document.rejects_or_passes text with hrejects | ⟨candidate, htext, hverify⟩
  · obtain ⟨hrequests, hlevel⟩ := update_of_rejected h hrejects
    rw [hrequests, hlevel]
    rfl
  · exact (update_of_accepted h htext hverify).logLevel_eq

theorem Answered.update (h : d.Answered) (text : String) : (d.update text).2.2.Answered := by
  refine ⟨rfl, ?_⟩
  rw [update_logLevel h text]
  cases (d.update text).2.1.logLevel with
  | none => exact h.level
  | some l => exact l.toNat_toWord_le

/-! ### Runs -/

/-- What can happen to a device: it is updated, it enters a state, it reads its sensor, or its
sensor and its application are found in another condition. -/
inductive Event (S H : Type) where
  | update (text : String)
  | enter (state : ProcessState)
  | load
  | meet (collaborators : Collaborators S H)

/-- What an event asks of the device, if it is an update, and the device after it. -/
def occur (d : Device S H) : Event S H → Option Requests × Device S H
  | .update text => (some (d.update text).2.1, (d.update text).2.2)
  | .enter state => (none, d.enter state)
  | .load => (none, d.load)
  | .meet collaborators => (none, { d with collaborators })

/-- What several events ask of the device, one after the other, and the device after them. -/
def occurAll : List (Event S H) → Device S H → List Requests × Device S H
  | [], d => ([], d)
  | e :: rest, d =>
    let later := occurAll rest (d.occur e).2
    ((d.occur e).1.toList ++ later.1, later.2)

/-- The log level that has been asked for last, if any has. -/
def lastLevel? (answers : List Requests) : Option LogLevel :=
  (answers.filterMap Requests.logLevel).getLast?

theorem lastLevel?_append (earlier later : List Requests) :
    lastLevel? (earlier ++ later) = (lastLevel? later).or (lastLevel? earlier) := by
  simp only [lastLevel?, List.filterMap_append, List.getLast?_append]

theorem lastLevel?_singleton (r : Requests) : lastLevel? [r] = r.logLevel := by
  unfold lastLevel?
  cases hl : r.logLevel <;> simp [hl]

/-- An event leaves nothing of what it asks for, and stores the log level that it asks for. -/
theorem occur_answered (h : d.Answered) (e : Event S H) :
    (d.occur e).2.Answered ∧ (d.occur e).2.document.common.logLevel =
      ((lastLevel? (d.occur e).1.toList).map LogLevel.toWord).getD d.document.common.logLevel := by
  cases e with
  | update text =>
      refine ⟨h.update text, (update_logLevel h text).trans ?_⟩
      show _ = ((lastLevel? [(d.update text).2.1]).map LogLevel.toWord).getD _
      rw [lastLevel?_singleton]
  | enter state => exact ⟨⟨h.taken, h.level⟩, rfl⟩
  | load => exact ⟨⟨h.taken, h.level⟩, rfl⟩
  | meet collaborators => exact ⟨⟨h.taken, h.level⟩, rfl⟩

theorem occurAll_answered (events : List (Event S H)) :
    ∀ {d : Device S H}, d.Answered →
      let after := occurAll events d
      after.2.Answered ∧ after.2.document.common.logLevel =
        ((lastLevel? after.1).map LogLevel.toWord).getD d.document.common.logLevel := by
  induction events with
  | nil => exact fun h => ⟨h, rfl⟩
  | cons e rest ih =>
      intro d h
      obtain ⟨hone, hlevel⟩ := occur_answered h e
      obtain ⟨hall, hlevel'⟩ := ih hone
      refine ⟨hall, hlevel'.trans ?_⟩
      rw [hlevel]
      show _ = ((lastLevel? ((d.occur e).1.toList ++ _)).map LogLevel.toWord).getD _
      rw [lastLevel?_append]
      cases lastLevel? (occurAll rest (d.occur e).2).1 <;> rfl

/-- **Every update asks for what it demands itself, and no log level is lost.**  However a new
device has been updated, and whatever states, sensors and applications it has met, the log level
that is stored is the last one that has been asked for.  The next update asks for nothing if it is
rejected, and otherwise for what its candidate demands, whether or not it can be applied. -/
theorem occurAll_demands (sensor : S) (hook : H) (events : List (Event S H)) :
    let answers := (occurAll events (new sensor hook)).1
    let d := (occurAll events (new sensor hook)).2
    d.document.common.logLevel = ((lastLevel? answers).getD .warn).toWord ∧
      ∀ text,
        (d.document.Rejects text → (d.update text).2.1 = {}) ∧
        ∀ candidate, Object.ofText? text = some candidate →
          (d.document.verify candidate).1 = .ok () →
          (d.update text).2.1.Demanded (Object.object? candidate "common_settings")
            d.document.common.logLevel (d.update text).2.2.document.common.logLevel := by
  intro answers d
  have hnew : (new sensor hook).Answered := ⟨rfl, by show LogLevel.warn.toWord.toNat ≤ 5; decide⟩
  obtain ⟨hd, hlevel⟩ := occurAll_answered events hnew
  refine ⟨hlevel.trans ?_, fun text => ⟨fun hrejects => (update_of_rejected hd hrejects).1,
    fun candidate htext hverify => update_of_accepted hd htext hverify⟩⟩
  show ((lastLevel? answers).map LogLevel.toWord).getD LogLevel.warn.toWord = _
  cases lastLevel? answers <;> rfl

/-- A request to run and to log nothing but what is critical, with a digital zoom besides. -/
def quietRequest : String :=
  (Json.ofMembers [("common_settings", .ofMembers
    [("process_state", .word 2), ("log_level", .word 0),
      ("pq_settings", .ofMembers [("digital_zoom", .word 2)])])]).text

/-- The request on a sensor without a digital zoom, and then a text that is no request. -/
def quietEvents : List (Event Simulator Indifferent) :=
  [.meet Document.zoomless, .enter .idle, .update quietRequest, .update "[]"]

/-- On a sensor without a digital zoom, the request fails in its application and is heeded all the
same.  It leaves nothing to the update after it. -/
theorem occurAll_demands_failed :
    let answers := (occurAll quietEvents (new .powerOn {})).1
    let d := (occurAll quietEvents (new .powerOn {})).2
    answers = [⟨some .running, some .critical⟩, {}] ∧ d.document.common.logLevel = 0 ∧
      (d.update "[]").2.1 = {} ∧
      ∃ candidate, Object.ofText? quietRequest = some candidate ∧
        (d.document.verify candidate).1 = .ok () ∧ (d.update quietRequest).1 ≠ .ok () ∧
        (d.update quietRequest).2.1.Demanded (Object.object? candidate "common_settings")
          d.document.common.logLevel (d.update quietRequest).2.2.document.common.logLevel := by
  obtain ⟨hlevel, hnext⟩ := occurAll_demands Simulator.powerOn ({} : Indifferent) quietEvents
  have hanswers : (occurAll quietEvents (new .powerOn {})).1 =
      [⟨some .running, some .critical⟩, {}] := by decide +kernel
  have hnotObject : Object.ofText? "[]" = none := by decide +kernel
  let candidate := (Object.ofText? quietRequest).get (by decide +kernel)
  have htext : Object.ofText? quietRequest = some candidate := (Option.some_get _).symm
  have hverify : ((occurAll quietEvents (new .powerOn {})).2.document.verify candidate).1 =
      .ok () := by decide +kernel
  have hfails : ((occurAll quietEvents (new .powerOn {})).2.update quietRequest).1 ≠ .ok () := by
    decide +kernel
  rw [hanswers] at hlevel
  refine ⟨hanswers, hlevel, (hnext "[]").1 fun c hc => ?_, candidate, htext, hverify, hfails,
    (hnext quietRequest).2 candidate htext hverify⟩
  rw [hnotObject] at hc
  cases hc

end Device

end DeviceConfig
