/-
Nothing brings a device back from its end.

A plan to be destroyed is never replaced by another, and whoever enters a state by way of the plan
enters the last one.  That is how an update reaches a state, and a failure, so neither matters to
a device that has been shut down: it is destroyed after everything that is done with it.

There is one way around the plan.  A device can be made to enter a state outright, as it is when
it is started.  It is then in that state although it has been shut down, but the plan stays, and
the next transition takes it back to the end.
-/
import DeviceConfig.Proofs.Working

namespace DeviceConfig

variable {S H K : Type}

/-! ### Plans that stay -/

namespace Device

/-- The device is in its last state and plans no other. -/
structure Destroyed (d : Device S H) : Prop where
  current : d.current = .destroying
  next : d.next = .destroying

/-- A device with a plan to be destroyed is where another one was, or destroyed. -/
structure Doomed (before d : Device S H) : Prop where
  next : d.next = .destroying
  current : d.current = before.current ∨ d.current = .destroying

theorem plan_of_doomed {d : Device S H} (h : d.next = .destroying) (s : ProcessState) :
    d.plan s = d := if_pos h

theorem next_enter {d : Device S H} (h : d.next = .destroying) (s : ProcessState) :
    (d.enter s).next = .destroying := if_pos h

/-- Whatever state the device is in, its plan takes it to the end. -/
theorem transition_destroyed {d : Device S H} (h : d.next = .destroying) :
    d.transition.Destroyed := by
  unfold transition
  by_cases hsame : d.next = d.current
  · rw [if_pos hsame]
    exact ⟨hsame.symm.trans h, h⟩
  · rw [if_neg hsame]
    exact ⟨h, next_enter h d.next⟩

theorem destroy_destroyed (d : Device S H) : (d.plan .destroying).transition.Destroyed := by
  refine transition_destroyed ?_
  unfold plan
  by_cases h : d.next = .destroying
  · rw [if_pos h]
    exact h
  · rw [if_neg h]

namespace Doomed

variable {before d : Device S H}

theorem refl (h : before.next = .destroying) : Doomed before before := ⟨h, .inl rfl⟩

theorem transition (h : Doomed before d) : Doomed before d.transition :=
  have hend := transition_destroyed h.next
  ⟨hend.next, .inr hend.current⟩

/-- Every move ends where the plan says. -/
theorem move (h : Doomed before d) (s : ProcessState) : Doomed before (d.plan s).transition := by
  rw [plan_of_doomed h.next]
  exact h.transition

end Doomed

end Device

/-! ### Everything that can be done -/

namespace Lifecycle

/-- What can be done with a device, by those who send it configurations and by those who own it. -/
inductive Deed where
  | act (a : Action)
  /-- A text waits to be applied, whatever it is. -/
  | queue (text : String)
  /-- A text is applied at once. -/
  | update (text : String)
  | plan (s : ProcessState)
  | start (s : ProcessState)
  /-- A state is entered although nobody has planned it. -/
  | enter (s : ProcessState)

/-- A state is entered past the plan. -/
def Deed.Enters : Deed → Prop
  | .start _ | .enter _ => True
  | _ => False

instance : DecidablePred Deed.Enters
  | .start _ | .enter _ => isTrue trivial
  | .act _ | .queue _ | .update _ | .plan _ => isFalse id

/-- The lifecycle after a deed. -/
def perform [Sensor S] [Hook H] [Sink K] (l : Lifecycle S H K) : Deed → Lifecycle S H K
  | .act a => l.act a
  | .queue text => l.onDevice fun d => { d with pending := some text }
  | .update text => l.onDevice fun d => (d.update text).2.2
  | .plan s => l.onDevice fun d => d.plan s
  | .start s => l.start s
  | .enter s => l.onDevice fun d => d.enter s

/-- The lifecycle after several deeds, one after the other. -/
def performAll [Sensor S] [Hook H] [Sink K] (deeds : List Deed) (l : Lifecycle S H K) :
    Lifecycle S H K :=
  deeds.foldl perform l

section Deeds

variable [Sensor S] [Hook H] [Sink K] {l : Lifecycle S H K}

/-- An action leaves a doomed device where it is, or destroys it. -/
theorem act_doomed (h : l.device.next = .destroying) (a : Action) :
    l.device.Doomed (l.act a).device := by
  have hbegun : l.device.Doomed l.device := .refl h
  cases a with
  | configure text =>
      obtain ⟨pending, henqueue⟩ := enqueue_eq text l
      show l.device.Doomed (l.enqueue text).2.device
      rw [henqueue]
      exact ⟨h, .inl rfl⟩
  | process =>
      show l.device.Doomed l.process.2.device
      cases hpending : l.device.pending with
      | none =>
          rw [process_of_none hpending]
          exact hbegun
      | some text =>
          rw [process_of_some hpending]
          have happlied : l.device.Doomed (l.applied text).device :=
            applied_keeps (Q := fun _ => True) (fun _ s _ hd => hd.move s)
              (fun _ hd => ⟨hd.next, hd.current⟩) trivial (fun _ _ => trivial) ⟨h, .inl rfl⟩
          exact dispatch_keeps (fun _ hd => ⟨hd.next, hd.current⟩) happlied
  | dispatch => exact dispatch_keeps (fun _ hd => ⟨hd.next, hd.current⟩) hbegun
  | transition => exact hbegun.transition
  | shutdown => exact hbegun.move .destroying

/-- **A doomed device stays doomed**, and where it is unless it is destroyed or made to enter
another state. -/
theorem perform_doomed (h : l.device.next = .destroying) (deed : Deed) :
    (l.perform deed).device.next = .destroying ∧
      (¬ deed.Enters → l.device.Doomed (l.perform deed).device) := by
  have hstays : ∀ {d : Device S H}, l.device.Doomed d →
      d.next = .destroying ∧ (¬ deed.Enters → l.device.Doomed d) := fun hd => ⟨hd.next, fun _ => hd⟩
  cases deed with
  | act a => exact hstays (act_doomed h a)
  | queue text => exact hstays ⟨h, .inl rfl⟩
  | update text => exact hstays ⟨h, .inl rfl⟩
  | plan s =>
      show (l.device.plan s).next = .destroying ∧ (_ → l.device.Doomed (l.device.plan s))
      rw [Device.plan_of_doomed h]
      exact hstays (.refl h)
  | start s =>
      have hload : l.device.load.next = .destroying := h
      exact ⟨Device.next_enter hload s, fun hnot => absurd trivial hnot⟩
  | enter s => exact ⟨Device.next_enter h s, fun hnot => absurd trivial hnot⟩

theorem performAll_doomed (deeds : List Deed) :
    ∀ {l : Lifecycle S H K}, l.device.next = .destroying →
      (l.performAll deeds).device.next = .destroying := by
  induction deeds with
  | nil => intro l h; exact h
  | cons deed rest ih => intro l h; exact ih (perform_doomed h deed).1

theorem performAll_destroyed (deeds : List Deed) :
    ∀ {l : Lifecycle S H K}, (∀ deed ∈ deeds, ¬ deed.Enters) → l.device.Destroyed →
      (l.performAll deeds).device.Destroyed := by
  induction deeds with
  | nil => intro l _ h; exact h
  | cons deed rest ih =>
      intro l hdeeds h
      have hdoomed := (perform_doomed h.next deed).2 (hdeeds deed (by simp))
      have hcurrent : (l.perform deed).device.current = .destroying := by
        rcases hdoomed.current with hsame | hend
        · exact hsame.trans h.current
        · exact hend
      exact ih (fun other hother => hdeeds other (by simp [hother])) ⟨hcurrent, hdoomed.next⟩

end Deeds

/-- **To be destroyed is final.**  After a shutdown, whatever state it comes in, a device is
destroyed after every deed, if none of them makes it enter a state outright.  And whatever is done
with a device that plans to be destroyed, its plan stays, and takes it to its end when it is
followed. -/
theorem shutdown_final [Sensor S] [Hook H] [Sink K] (l : Lifecycle S H K) (deeds : List Deed) :
    ((∀ deed ∈ deeds, ¬ deed.Enters) →
      (l.shutdown.performAll deeds).device.current = .destroying ∧
        (l.shutdown.performAll deeds).device.next = .destroying) ∧
    (l.device.next = .destroying →
      (l.performAll deeds).device.next = .destroying ∧
        (l.performAll deeds).transition.device.current = .destroying) := by
  constructor
  · intro hdeeds
    have hend : (l.shutdown.performAll deeds).device.Destroyed :=
      performAll_destroyed deeds hdeeds l.device.destroy_destroyed
    exact ⟨hend.current, hend.next⟩
  · intro h
    have hplan := performAll_doomed deeds h
    exact ⟨hplan, (Device.transition_destroyed hplan).current⟩

/-- A running device that has been shut down. -/
def ended : Lifecycle Simulator Indifferent Outage :=
  shutdown (launch .running .powerOn {} ⟨0⟩ "state" .detached)

/-- Attempts to make a device run again, or be idle. -/
def revivals : List Deed :=
  [.act (.configure runningRequest), .act .process, .queue "no document", .act .process,
    .update runningRequest, .plan .running, .act .transition, .act .dispatch, .act .shutdown]

/-- All attempts on a device that has been shut down are in vain.  Started again, it is idle for as
long as nobody follows the plan. -/
theorem shutdown_final_restarted :
    (∀ deed ∈ revivals, ¬ deed.Enters) ∧
      (ended.performAll revivals).device.current = .destroying ∧
      (ended.performAll revivals).device.next = .destroying ∧
      ended.device.next = .destroying ∧
      (ended.performAll (revivals ++ [.start .idle])).device.current = .idle ∧
      (ended.performAll (revivals ++ [.start .idle])).device.next = .destroying ∧
      (ended.performAll (revivals ++ [.start .idle])).transition.device.current =
        .destroying := by
  have hrevivals : ∀ deed ∈ revivals, ¬ deed.Enters := by decide
  have hplan : ended.device.next = .destroying := by decide +kernel
  have hfirst := (shutdown_final (launch .running Simulator.powerOn Indifferent.mk (Outage.mk 0)
    "state" .detached) revivals).1 hrevivals
  have hsecond := (shutdown_final ended (revivals ++ [.start .idle])).2 hplan
  exact ⟨hrevivals, hfirst.1, hfirst.2, hplan, by decide +kernel, hsecond.1, hsecond.2⟩

end Lifecycle

end DeviceConfig
