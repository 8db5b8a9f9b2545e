/-
What the outside knows of a device.

A sink is told of the document from time to time.  Whenever no notification is due, the
document is the one that the sink accepted last, or the first of all if it has accepted none.

The argument is one about single actions.  An action either leaves the document and the sink
alone, or leaves a notification due, or has the sink accept the document as it is afterwards;
`Effect` is this distinction.  It relies on the device being settled: entering a state may
change the document without notice, and between two actions a settled device has no state
left to enter.
-/
import DeviceConfig.Lifecycle
import DeviceConfig.Proofs.Device

namespace DeviceConfig

variable {S H K : Type}

/-! ### What a sink has accepted -/

/-- A sink together with every document that it has accepted, oldest first. -/
structure SinkRecorder (K : Type) where
  sink : K
  accepted : List Serialized := []

namespace SinkRecorder

instance [Sink K] : Sink (SinkRecorder K) where
  send r topic s :=
    match Sink.send r.sink topic s with
    | (.ok (), sink) => (.ok (), ⟨sink, r.accepted ++ [s]⟩)
    | (.error e, sink) => (.error e, { r with sink })

theorem send_accepted [Sink K] {r : SinkRecorder K} {topic : String} {s : Serialized} {sink : K}
    (h : Sink.send r.sink topic s = (.ok (), sink)) :
    Sink.send r topic s = (.ok (), ⟨sink, r.accepted ++ [s]⟩) := by
  simp only [Sink.send, h]

theorem send_refused [Sink K] {r : SinkRecorder K} {topic : String} {s : Serialized} {sink : K}
    {e : RuntimeError} (h : Sink.send r.sink topic s = (.error e, sink)) :
    Sink.send r topic s = (.error e, { r with sink }) := by
  simp only [Sink.send, h]

/-- A document is the one that was accepted last, or the first if none was. -/
def Knows (first : Document) (r : SinkRecorder K) (d : Document) : Prop :=
  match r.accepted.getLast? with
  | some s => d.serialize = .ok s
  | none => d = first

theorem knows_of_accepted {first d : Document} {r : SinkRecorder K} {before : List Serialized}
    {s : Serialized} (haccepted : r.accepted = before ++ [s]) (hd : d.serialize = .ok s) :
    r.Knows first d := by
  unfold Knows
  rw [haccepted, List.getLast?_concat]
  exact hd

end SinkRecorder

/-! ### Runs -/

namespace Lifecycle

/-- What can be done with a device once it has been started. -/
inductive Action where
  | configure (text : String)
  | process
  | dispatch
  | transition
  | shutdown

/-- The lifecycle after an action. -/
def act [Sensor S] [Hook H] [Sink K] (l : Lifecycle S H K) : Action → Lifecycle S H K
  | .configure text => (l.enqueue text).2
  | .process => l.process.2
  | .dispatch => l.dispatch.2
  | .transition => l.transition
  | .shutdown => l.shutdown

/-- The lifecycle after several actions, one after the other. -/
def run [Sensor S] [Hook H] [Sink K] (actions : List Action) (l : Lifecycle S H K) :
    Lifecycle S H K :=
  actions.foldl act l

/-- A new device that has just been started. -/
def launch [Sensor S] (initial : ProcessState) (sensor : S) (hook : H) (sink : K)
    (topic : String) (logFilter : LogFilter) : Lifecycle S H K :=
  start initial { device := .new sensor hook, sink, topic, logFilter }

/-- The lifecycle after a configuration has been applied and before the document is sent. -/
def applied [Sensor S] [Hook H] (text : String) (l : Lifecycle S H K) : Lifecycle S H K :=
  let (outcome, requests, device) := { l.device with pending := none }.update text
  settle outcome (follow requests { l with device })

theorem process_of_none [Sensor S] [Hook H] [Sink K] {l : Lifecycle S H K}
    (hpending : l.device.pending = none) : l.process = (.ok .nothing, l) := by
  unfold process
  rw [hpending]

/-- Of a waiting configuration nothing is returned but a failure to send, or its outcome. -/
theorem process_of_some [Sensor S] [Hook H] [Sink K] {l : Lifecycle S H K} {text : String}
    (hpending : l.device.pending = some text) :
    l.process =
      ((l.applied text).dispatch.1.map fun _ =>
          processed ({ l.device with pending := none }.update text).1,
        (l.applied text).dispatch.2) := by
  unfold process applied
  rw [hpending]
  simp only
  split
  · rename_i hdispatch
    rw [hdispatch]
    rfl
  · rename_i hdispatch
    rw [hdispatch]
    rfl

/-! ### Sending -/

section Dispatch

variable [Sink K] {l : Lifecycle S H K} {s : Serialized} {sink : K}

theorem dispatch_of_lowered (hraised : ¬ l.device.isRaised = true) :
    l.dispatch = (.ok false, l) := by
  unfold dispatch
  rw [if_neg hraised]

theorem dispatch_of_unwritten (hraised : l.device.isRaised = true) {e : ConfigError}
    (hserialize : l.device.document.serialize = .error e) :
    l.dispatch = (.error (.config e), l) := by
  unfold dispatch
  rw [if_pos hraised, hserialize]

theorem dispatch_of_refused (hraised : l.device.isRaised = true)
    (hserialize : l.device.document.serialize = .ok s) {e : RuntimeError}
    (hsend : Sink.send l.sink l.topic s = (.error e, sink)) :
    l.dispatch = (.error e, { l with sink }) := by
  unfold dispatch
  rw [if_pos hraised, hserialize]
  simp only [hsend]

theorem dispatch_of_accepted (hraised : l.device.isRaised = true)
    (hserialize : l.device.document.serialize = .ok s)
    (hsend : Sink.send l.sink l.topic s = (.ok (), sink)) :
    l.dispatch = (.ok true, { l with sink, device := l.device.onReply Reply.lower }) := by
  unfold dispatch
  rw [if_pos hraised, hserialize]
  simp only [hsend]

/-- Sending may take a notification back, and changes nothing else of the device. -/
theorem dispatch_device (l : Lifecycle S H K) :
    l.dispatch.2.device = l.device ∨
      l.dispatch.1 = .ok true ∧ l.dispatch.2.device = l.device.onReply Reply.lower := by
  by_cases hraised : l.device.isRaised = true
  · cases hserialize : l.device.document.serialize with
    | error e => rw [dispatch_of_unwritten hraised hserialize]; exact .inl rfl
    | ok s =>
        rcases hsend : Sink.send l.sink l.topic s with ⟨e | _, sink⟩
        · rw [dispatch_of_refused hraised hserialize hsend]
          exact .inl rfl
        · rw [dispatch_of_accepted hraised hserialize hsend]
          exact .inr ⟨rfl, rfl⟩
  · rw [dispatch_of_lowered hraised]
    exact .inl rfl

/-- A failed sending leaves the device as it is, with the notification still due. -/
theorem dispatch_failed {e : RuntimeError} (hfailed : l.dispatch.1 = .error e) :
    l.dispatch.2.device = l.device ∧ l.device.isRaised = true := by
  constructor
  · rcases dispatch_device l with hsame | ⟨hsent, -⟩
    · exact hsame
    · rw [hsent] at hfailed
      cases hfailed
  · cases hraised : l.device.isRaised with
    | true => rfl
    | false =>
        rw [dispatch_of_lowered (by simp [hraised])] at hfailed
        cases hfailed

end Dispatch

/-! ### Moving -/

/-- The device has changed its state, or has been given notice, and nothing was sent. -/
structure Moved (l l' : Lifecycle S H K) : Prop where
  settled : l.device.Settled → l'.device.Settled
  raised : l.device.isRaised = true → l'.device.isRaised = true
  sink : l'.sink = l.sink

namespace Moved

variable {l : Lifecycle S H K}

theorem refl (l : Lifecycle S H K) : Moved l l := ⟨id, id, rfl⟩

theorem trans {l' l'' : Lifecycle S H K} (h : Moved l l') (h' : Moved l' l'') : Moved l l'' :=
  ⟨fun hl => h'.settled (h.settled hl), fun hl => h'.raised (h.raised hl), h'.sink.trans h.sink⟩

theorem moveTo (s : ProcessState) (l : Lifecycle S H K) : Moved l (l.moveTo s) where
  settled _ := Device.settled_transition _
  raised hl := (Device.isRaised_move s l.device).trans hl
  sink := rfl

theorem followState (requested : Option ProcessState) (l : Lifecycle S H K) :
    Moved l (followState requested l) := by
  cases requested with
  | none => exact refl l
  | some s =>
      unfold Lifecycle.followState
      by_cases h : s = l.device.current
      · simp only [if_pos h]
        exact refl l
      · simp only [if_neg h]
        exact moveTo s l

/-- Doing what an update asks for moves the device, whatever becomes of the log. -/
theorem follow (r : Requests) (l : Lifecycle S H K) : Moved l (follow r l) := by
  unfold Lifecycle.follow
  split
  · split
    · rename_i logFilter _
      have hfilter : Moved l { l with logFilter } := ⟨id, id, rfl⟩
      exact hfilter.trans (followState r.processState _)
    · exact ⟨id, id, rfl⟩
  · exact followState r.processState l

theorem settle (outcome : Verdict) (l : Lifecycle S H K) : Moved l (settle outcome l) := by
  cases outcome with
  | ok _ => exact refl l
  | error e =>
      have hraise : Moved (l.moveTo .idle)
          ((l.moveTo .idle).onDevice fun d => d.onReply Reply.raise) := ⟨id, fun _ => rfl, rfl⟩
      exact (moveTo .idle l).trans hraise

end Moved

/-- Nothing but moves comes between an update and the sending that follows it. -/
theorem applied_moved [Sensor S] [Hook H] (text : String) (l : Lifecycle S H K) :
    Moved { l with device := ({ l.device with pending := none }.update text).2.2 }
      (l.applied text) :=
  (Moved.follow _ _).trans (Moved.settle _ _)

/-- What the moves to the allowed states and giving notice keep of a device is kept by all that
follows an update, if the update asks for none but an allowed state. -/
theorem applied_keeps [Sensor S] [Hook H] {P : Device S H → Prop} {Q : ProcessState → Prop}
    (hmove : ∀ d s, Q s → P d → P (d.plan s).transition)
    (hraise : ∀ d, P d → P (d.onReply Reply.raise)) (hidle : Q .idle)
    {text : String} {l : Lifecycle S H K}
    (hasked : ∀ s, ({ l.device with pending := none }.update text).2.1.processState = some s →
      Q s)
    (hupdate : P ({ l.device with pending := none }.update text).2.2) :
    P (l.applied text).device := by
  have hfollowState : ∀ (requested : Option ProcessState) (l : Lifecycle S H K),
      (∀ s, requested = some s → Q s) → P l.device →
        P (followState requested l).device := by
    intro requested l hallowed hl
    cases requested with
    | none => exact hl
    | some s =>
        unfold followState
        by_cases h : s = l.device.current
        · simp only [if_pos h]
          exact hl
        · simp only [if_neg h]
          exact hmove l.device s (hallowed s rfl) hl
  have hfollow : ∀ (r : Requests) (l : Lifecycle S H K),
      (∀ s, r.processState = some s → Q s) → P l.device → P (follow r l).device := by
    intro r l hallowed hl
    unfold follow
    split
    · split
      · exact hfollowState _ _ hallowed hl
      · exact hl
    · exact hfollowState _ _ hallowed hl
  have hsettle : ∀ (outcome : Verdict) (l : Lifecycle S H K), P l.device →
      P (settle outcome l).device := by
    intro outcome l hl
    cases outcome with
    | ok _ => exact hl
    | error e => exact hraise _ (hmove l.device .idle hidle hl)
  exact hsettle _ _ (hfollow _ _ hasked hupdate)

/-- A notification is due after every configuration, whatever has become of it. -/
theorem applied_raised [Sensor S] [Hook H] (text : String) (l : Lifecycle S H K) :
    (l.applied text).device.isRaised = true := by
  rcases Device.update_due text { l.device with pending := none } with hraised | ⟨e, herror⟩
  · exact (applied_moved text l).raised hraised
  · -- A text that is not an object raises no flag of its own, but its failure does.
    unfold applied
    simp only [herror]
    rfl

/-- A notification is still due if the document could not be sent. -/
theorem process_failed [Sensor S] [Hook H] [Sink K] {l : Lifecycle S H K} {e : RuntimeError}
    (hfailed : l.process.1 = .error e) : l.process.2.device.isRaised = true := by
  cases hpending : l.device.pending with
  | none =>
      rw [process_of_none hpending] at hfailed
      cases hfailed
  | some text =>
      rw [process_of_some hpending] at hfailed ⊢
      cases hdispatch : (l.applied text).dispatch.1 with
      | ok b =>
          rw [hdispatch] at hfailed
          cases hfailed
      | error e =>
          show (l.applied text).dispatch.2.device.isRaised = true
          rw [(dispatch_failed hdispatch).1]
          exact applied_raised text l

/-! ### One action -/

theorem dispatch_keeps [Sink K] {P : Device S H → Prop}
    (hlower : ∀ d, P d → P (d.onReply Reply.lower)) {l : Lifecycle S H K} (hl : P l.device) :
    P l.dispatch.2.device := by
  rcases dispatch_device l with h | ⟨-, h⟩ <;> rw [h]
  · exact hl
  · exact hlower l.device hl

theorem dispatch_settled [Sink K] {l : Lifecycle S H K} (hl : l.device.Settled) :
    l.dispatch.2.device.Settled := by
  rcases dispatch_device l with h | ⟨-, h⟩ <;> rw [h] <;> exact hl

/-- Queueing concerns nothing but the queue. -/
theorem enqueue_eq (text : String) (l : Lifecycle S H K) :
    ∃ pending, (l.enqueue text).2 = l.onDevice fun d => { d with pending } := by
  unfold enqueue
  split
  · split
    · exact ⟨l.device.pending, rfl⟩
    · exact ⟨some text, rfl⟩
  · exact ⟨l.device.pending, rfl⟩

/-- A device stays settled through every action. -/
theorem act_settled [Sensor S] [Hook H] [Sink K] {l : Lifecycle S H K}
    (hl : l.device.Settled) (a : Action) : (l.act a).device.Settled := by
  cases a with
  | configure text =>
      obtain ⟨pending, henqueue⟩ := enqueue_eq text l
      show (l.enqueue text).2.device.Settled
      rw [henqueue]
      exact hl
  | process =>
      show l.process.2.device.Settled
      cases hpending : l.device.pending with
      | none => rw [process_of_none hpending]; exact hl
      | some text =>
          rw [process_of_some hpending]
          exact dispatch_settled ((applied_moved text l).settled hl)
  | dispatch => exact dispatch_settled hl
  | transition => exact Device.settled_transition l.device
  | shutdown => exact (Moved.moveTo .destroying l).settled hl

/-- What an action means to the outside. -/
inductive Effect (l l' : Lifecycle S H (SinkRecorder K)) : Prop
  /-- There is nothing new, and nothing has been accepted. -/
  | still (document : l'.device.document = l.device.document)
      (accepted : l'.sink.accepted = l.sink.accepted)
  /-- Nothing has been accepted, and a notification is due. -/
  | due (raised : l'.device.isRaised = true) (accepted : l'.sink.accepted = l.sink.accepted)
  /-- The document has been accepted as it is now. -/
  | told (s : Serialized) (document : l'.device.document.serialize = .ok s)
      (accepted : l'.sink.accepted = l.sink.accepted ++ [s])

theorem dispatch_effect [Sink K] (l : Lifecycle S H (SinkRecorder K)) :
    Effect l l.dispatch.2 := by
  by_cases hraised : l.device.isRaised = true
  · cases hserialize : l.device.document.serialize with
    | error e => rw [dispatch_of_unwritten hraised hserialize]; exact .still rfl rfl
    | ok s =>
        rcases hsend : Sink.send l.sink.sink l.topic s with ⟨e | _, sink⟩
        · rw [dispatch_of_refused hraised hserialize (SinkRecorder.send_refused hsend)]
          exact .still rfl rfl
        · rw [dispatch_of_accepted hraised hserialize (SinkRecorder.send_accepted hsend)]
          exact .told s hserialize rfl
  · rw [dispatch_of_lowered hraised]
    exact .still rfl rfl

/-- **An action keeps the document, gives notice of it, or has it accepted.** -/
theorem act_effect [Sensor S] [Hook H] [Sink K] {l : Lifecycle S H (SinkRecorder K)}
    (hl : l.device.Settled) (a : Action) : Effect l (l.act a) := by
  cases a with
  | configure text =>
      obtain ⟨pending, henqueue⟩ := enqueue_eq text l
      show Effect l (l.enqueue text).2
      rw [henqueue]
      exact .still rfl rfl
  | process =>
      show Effect l l.process.2
      cases hpending : l.device.pending with
      | none => rw [process_of_none hpending]; exact .still rfl rfl
      | some text =>
          rw [process_of_some hpending]
          have hsink := (applied_moved text l).sink
          -- The document need not be the one before, so what keeps it now has to give notice.
          cases dispatch_effect (l.applied text) with
          | still document accepted =>
              have hraised : (l.applied text).dispatch.2.device.isRaised = true := by
                unfold Device.isRaised
                rw [document]
                exact applied_raised text l
              exact .due hraised (by rw [accepted, hsink])
          | due raised accepted => exact .due raised (by rw [accepted, hsink])
          | told s document accepted => exact .told s document (by rw [accepted, hsink])
  | dispatch => exact dispatch_effect l
  | transition =>
      -- Entering a state could change the document, but there is none to enter.
      refine .still ?_ rfl
      show l.device.transition.document = l.device.document
      rw [Device.transition_of_settled hl]
  | shutdown => exact .still (Device.document_destroy hl) rfl

/-- A notification is only taken back once the document has been accepted as it is. -/
theorem act_lowers [Sensor S] [Hook H] [Sink K] {l : Lifecycle S H (SinkRecorder K)}
    (hl : l.device.Settled) {a : Action} (hbefore : l.device.isRaised = true)
    (hafter : (l.act a).device.isRaised = false) :
    ∃ s, (l.act a).sink.accepted = l.sink.accepted ++ [s] ∧
      (l.act a).device.document.serialize = .ok s := by
  cases act_effect hl a with
  | still document accepted =>
      have hraised : (l.act a).device.isRaised = true := by
        unfold Device.isRaised
        rw [document]
        exact hbefore
      rw [hraised] at hafter
      cases hafter
  | due raised accepted =>
      rw [raised] at hafter
      cases hafter
  | told s document accepted => exact ⟨s, accepted, document⟩

/-! ### Whole runs -/

/-- A settled device of which the outside knows everything that it has not been promised. -/
structure Reported (first : Document) (l : Lifecycle S H (SinkRecorder K)) : Prop where
  settled : l.device.Settled
  known : l.device.isRaised = false → l.sink.Knows first l.device.document

theorem launch_settled [Sensor S] (initial : ProcessState) (sensor : S) (hook : H) (sink : K)
    (topic : String) (logFilter : LogFilter) :
    (launch initial sensor hook sink topic logFilter).device.Settled :=
  Device.settled_enter (show ProcessState.creating ≠ .destroying from nofun) initial

theorem act_reported [Sensor S] [Hook H] [Sink K] {first : Document}
    {l : Lifecycle S H (SinkRecorder K)} (h : Reported first l) (a : Action) :
    Reported first (l.act a) := by
  refine ⟨act_settled h.settled a, fun hraised => ?_⟩
  cases act_effect h.settled a with
  | still document accepted =>
      have hbefore : l.device.isRaised = false := by
        unfold Device.isRaised at hraised ⊢
        rw [← document]
        exact hraised
      have hknown := h.known hbefore
      unfold SinkRecorder.Knows at hknown ⊢
      rw [document, accepted]
      exact hknown
  | due raised accepted =>
      rw [raised] at hraised
      cases hraised
  | told s document accepted => exact SinkRecorder.knows_of_accepted accepted document

theorem run_reported [Sensor S] [Hook H] [Sink K] {first : Document} (actions : List Action) :
    ∀ {l : Lifecycle S H (SinkRecorder K)}, Reported first l → Reported first (run actions l) := by
  induction actions with
  | nil => intro l h; exact h
  | cons a rest ih => intro l h; exact ih (act_reported h a)

/-! ### Recording makes no difference -/

/-- The lifecycle without the record of what has been accepted. -/
def unrecorded (l : Lifecycle S H (SinkRecorder K)) : Lifecycle S H K :=
  { l with sink := l.sink.sink }

theorem unrecorded_dispatch [Sink K] (l : Lifecycle S H (SinkRecorder K)) :
    l.dispatch.2.unrecorded = l.unrecorded.dispatch.2 := by
  have hd : l.unrecorded.device = l.device := rfl
  by_cases hraised : l.device.isRaised = true
  · cases hserialize : l.device.document.serialize with
    | error e =>
        rw [dispatch_of_unwritten hraised hserialize,
          dispatch_of_unwritten (l := l.unrecorded) hraised hserialize]
    | ok s =>
        rcases hsend : Sink.send l.sink.sink l.topic s with ⟨e | _, sink⟩
        · rw [dispatch_of_refused hraised hserialize (SinkRecorder.send_refused hsend),
            dispatch_of_refused (l := l.unrecorded) hraised hserialize hsend]
          rfl
        · rw [dispatch_of_accepted hraised hserialize (SinkRecorder.send_accepted hsend),
            dispatch_of_accepted (l := l.unrecorded) hraised hserialize hsend]
          rfl
  · rw [dispatch_of_lowered hraised, dispatch_of_lowered (l := l.unrecorded) hraised]

theorem unrecorded_followState (requested : Option ProcessState)
    (l : Lifecycle S H (SinkRecorder K)) :
    (followState requested l).unrecorded = followState requested l.unrecorded := by
  cases requested with
  | none => rfl
  | some s =>
      unfold followState
      by_cases h : s = l.device.current
      · simp only [if_pos h, if_pos (show s = l.unrecorded.device.current from h)]
      · simp only [if_neg h, if_neg (show ¬ s = l.unrecorded.device.current from h)]
        rfl

theorem unrecorded_follow (r : Requests) (l : Lifecycle S H (SinkRecorder K)) :
    (follow r l).unrecorded = follow r l.unrecorded := by
  have hlog : l.unrecorded.logFilter = l.logFilter := rfl
  unfold follow
  rw [hlog]
  cases r.logLevel with
  | none => exact unrecorded_followState r.processState l
  | some level =>
      simp only
      rcases l.logFilter.setLevel level with ⟨e | _, logFilter⟩
      · rfl
      · exact unrecorded_followState r.processState { l with logFilter }

theorem unrecorded_applied [Sensor S] [Hook H] (text : String)
    (l : Lifecycle S H (SinkRecorder K)) :
    (l.applied text).unrecorded = l.unrecorded.applied text := by
  have hsettle : ∀ outcome (l : Lifecycle S H (SinkRecorder K)),
      (settle outcome l).unrecorded = settle outcome l.unrecorded := by
    intro outcome l
    cases outcome <;> rfl
  unfold applied
  simp only
  rw [hsettle, unrecorded_follow]
  rfl

/-- An action does the same whether or not the sink is recorded. -/
theorem unrecorded_act [Sensor S] [Hook H] [Sink K] (l : Lifecycle S H (SinkRecorder K))
    (a : Action) : (l.act a).unrecorded = l.unrecorded.act a := by
  cases a with
  | configure text =>
      show (l.enqueue text).2.unrecorded = (l.unrecorded.enqueue text).2
      have hd : l.unrecorded.device = l.device := rfl
      unfold enqueue
      rw [hd]
      split
      · split <;> rfl
      · rfl
  | process =>
      show l.process.2.unrecorded = l.unrecorded.process.2
      cases hpending : l.device.pending with
      | none => rw [process_of_none hpending, process_of_none (l := l.unrecorded) hpending]
      | some text =>
          rw [process_of_some hpending, process_of_some (l := l.unrecorded) hpending]
          simp only
          rw [unrecorded_dispatch, unrecorded_applied]
  | dispatch => exact unrecorded_dispatch l
  | transition => rfl
  | shutdown => rfl

theorem unrecorded_run [Sensor S] [Hook H] [Sink K] (actions : List Action) :
    ∀ l : Lifecycle S H (SinkRecorder K),
      (run actions l).unrecorded = run actions l.unrecorded := by
  induction actions with
  | nil => intro l; rfl
  | cons a rest ih =>
      intro l
      show (run rest (l.act a)).unrecorded = run rest (l.unrecorded.act a)
      rw [ih, unrecorded_act]

/-! ### Everything is reported -/

/-- **No change goes unreported.**  Whatever is done with a started device, and whichever of
the sendings fail, the document is the one that was accepted last, or the first if none was,
unless a notification is due.  A notification is only taken back when the document is accepted
as it is, so a failed sending loses nothing. -/
theorem run_reports [Sensor S] [Hook H] [Sink K] (initial : ProcessState) (sensor : S)
    (hook : H) (sink : K) (topic : String) (logFilter : LogFilter) (actions : List Action) :
    let begun : Lifecycle S H (SinkRecorder K) :=
      launch initial sensor hook ⟨sink, []⟩ topic logFilter
    let l := run actions begun
    l.unrecorded = run actions (launch initial sensor hook sink topic logFilter) ∧
      (l.device.isRaised = false →
        l.sink.Knows begun.device.document l.device.document) ∧
      (∀ a, l.device.isRaised = true → (l.act a).device.isRaised = false →
        ∃ s, (l.act a).sink.accepted = l.sink.accepted ++ [s] ∧
          (l.act a).device.document.serialize = .ok s) ∧
      (∀ e, l.dispatch.1 = .error e →
        l.dispatch.2.device = l.device ∧ l.device.isRaised = true) ∧
      ∀ e, l.process.1 = .error e → l.process.2.device.isRaised = true := by
  intro begun l
  have hbegun : Reported begun.device.document begun :=
    ⟨launch_settled initial sensor hook _ topic logFilter, fun _ => rfl⟩
  have hl : Reported begun.device.document l := run_reported actions hbegun
  refine ⟨unrecorded_run actions begun, hl.known, ?_, ?_, ?_⟩
  · intro a hbefore hafter
    exact act_lowers hl.settled hbefore hafter
  · intro e hfailed
    exact dispatch_failed hfailed
  · intro e hfailed
    exact process_failed hfailed

/-- A sink that refuses a number of documents before it accepts one. -/
structure Outage where
  remaining : Nat

instance : Sink Outage where
  send o _ _ :=
    match o.remaining with
    | 0 => (.ok (), o)
    | n + 1 => (.error (.dispatch "refused"), ⟨n⟩)

/-- A request that asks for nothing. -/
def idleRequest : String :=
  (Json.ofMembers [("req_info", .ofMembers [("req_id", .string "1")])]).text

/-- A document that could not be sent at once is sent as it is later. -/
theorem run_reports_after_outage :
    let begun : Lifecycle Simulator Indifferent (SinkRecorder Outage) :=
      launch .idle .powerOn {} ⟨⟨1⟩, []⟩ "state" .detached
    let l := run [.configure idleRequest, .process] begun
    l.device.isRaised = true ∧
      ∃ s, (l.act .dispatch).sink.accepted = l.sink.accepted ++ [s] ∧
        (l.act .dispatch).device.document.serialize = .ok s := by
  have h := run_reports .idle Simulator.powerOn Indifferent.mk (Outage.mk 1) "state" .detached
    [.configure idleRequest, .process]
  exact ⟨by decide +kernel, h.2.2.1 .dispatch (by decide +kernel) (by decide +kernel)⟩

end Lifecycle

end DeviceConfig
