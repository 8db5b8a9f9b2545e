/-
The same update twice.

An update that has been made once is to no further effect.  What a candidate says of the document is
there after the first time, or the sensor has refused it and refuses it again; and the settings of
the application are kept whatever it answers, so they are not new the second time.

The candidate also passes again.  Some checks look at what is held: the bounds of a property are
compared after the candidate has been merged, and a change of the ports has to leave one of them
enabled.  By then the candidate has been put in or it has not, and either way the checks find what
they found before.
-/
import DeviceConfig.Proofs.Commitment
import DeviceConfig.Proofs.Delivery
import DeviceConfig.Proofs.Nesting
import DeviceConfig.Proofs.Settling

namespace DeviceConfig

variable {S H : Type}

/-! ### Values and themselves -/

theorem Number.same_self (n : Number) : n.same n = true := by
  cases n with
  | integer i _ => exact beq_self_eq_true i
  | double x => exact beq_self_eq_true x.toInt

namespace Json

mutual

/-- Every value is the same as itself. -/
theorem same_self : ∀ v : Json, v.same v = true
  | .null => rfl
  | .bool b => beq_self_eq_true b
  | .number n => n.same_self
  | .string s => beq_self_eq_true s
  | .array items => sameItems_self items
  | .object members => sameMembers_self members

theorem sameItems_self : ∀ items : List Json, sameItems items items = true
  | [] => rfl
  | x :: xs => by
      rw [sameItems, same_self x, sameItems_self xs]
      rfl

theorem sameMembers_self : ∀ members : List (String × Json), sameMembers members members = true
  | [] => rfl
  | (k, x) :: xs => by
      rw [sameMembers, same_self x, sameMembers_self xs, beq_self_eq_true]
      rfl

end

end Json

/-- Settings that have been kept are not new any more. -/
theorem Custom.unchanged_kept_self (requestId : String) (settings : Object) (v : Verdict) :
    unchanged (kept requestId settings v) settings = true := by
  rw [unchanged_kept]
  exact Json.same_self _

/-! ### Passing again -/

theorem Picture.check_again {p p' : Picture} {candidate : Object}
    (hsorted : (Json.object candidate).Sorted)
    (hknown : ∀ s value, Object.object? candidate s.field = some value →
      p'.structured.get? s = p.structured.get? s ∨
        p'.structured.get? s = some (s.description.merged value (p.structured.get? s)))
    (h : p.check candidate = .ok ()) : p'.check candidate = .ok () := by
  obtain ⟨hobject, hregisters⟩ := Verdict.bind_eq_ok.mp h
  obtain ⟨hrules, hparts⟩ := Check.of_object hobject
  refine Verdict.bind_eq_ok.mpr ⟨?_, hregisters⟩
  refine (Check.object_iff hsorted.nodup).mpr ⟨hrules, fun name check value hpart hvalue => ?_⟩
  obtain ⟨s, hs, hcheck⟩ := List.mem_map.mp hpart
  obtain ⟨rfl, rfl⟩ := Prod.mk.inj hcheck
  unfold checkStructured
  rw [s.independent.check_again (hknown s value hvalue)]
  exact hparts _ _ _ (List.mem_map.mpr ⟨s, hs, rfl⟩) hvalue

theorem Ports.check_again {p p' : Ports} {candidate : Object}
    (hp : p' = p ∨ p' = p.merge candidate) (h : p.check candidate = .ok ()) :
    p'.check candidate = .ok () := by
  rcases hp with rfl | rfl
  · exact h
  · obtain ⟨hparts, -⟩ := Verdict.bind_eq_ok.mp h
    refine Verdict.bind_eq_ok.mpr ⟨hparts, ?_⟩
    rw [merge_merge]
    exact if_neg fun hchanged => hchanged.1 rfl

namespace Common

/-- What a state of the device admits of a part is the whole of it or nothing. -/
theorem part_admitted (state : ProcessState) (candidate : Object) (name : String) :
    (admitted state candidate).part name = candidate.part name ∨
      (admitted state candidate).part name = [] := by
  unfold Object.part
  cases hfragment : Object.object? (admitted state candidate) name with
  | none => exact .inr rfl
  | some fragment =>
      rw [object?_of_admitted hfragment]
      exact .inl rfl

namespace Settles

variable {candidate : Object} {a a' : Common} {s s' : Simulator} {state : ProcessState}

/-- A structured property is as it was, or what the candidate has for it has been merged. -/
theorem structured (h : Settles (admitted state candidate) a s a' s') {fragment value : Object}
    {i : Structured} (hfragment : Object.object? candidate "pq_settings" = some fragment)
    (hvalue : Object.object? fragment i.field = some value) :
    a'.picture.structured.get? i = a.picture.structured.get? i ∨
      a'.picture.structured.get? i =
        some (i.description.merged value (a.picture.structured.get? i)) := by
  have hpart : candidate.part "pq_settings" = fragment := by rw [Object.part, hfragment]; rfl
  have hheld : (a'.picture.structured.get? i).map i.property = _ :=
    congrArg Prod.fst (h.slot (.item (.structured i)))
  rcases pushed_held s.takes
    ((Picture.Item.structured i).asked? a.picture ((admitted state candidate).part "pq_settings"))
    ((a.picture.structured.get? i).map i.property, s.read i.key) with hkept | ⟨q, hq, hnew⟩
  · exact .inl (Picture.Item.get?_of_value? (hheld.trans hkept))
  · refine .inr (Option.map_injective i.property_injective (hheld.trans (hnew.trans ?_)))
    rcases part_admitted state candidate "pq_settings" with hsame | hnone
    · rw [hsame, hpart] at hq
      rw [← hq]
      simp only [Picture.Item.asked?, hvalue, Option.map_some]
    · rw [hnone] at hq
      cases hq

/-- **What has been applied passes again.** -/
theorem check_again (h : Settles (admitted state candidate) a s a' s')
    (hsorted : (Json.object candidate).Sorted) (hcheck : a.check candidate = .ok ()) :
    a'.check candidate = .ok () := by
  obtain ⟨hrules, hparts⟩ := Check.of_object hcheck
  refine (Check.object_iff hsorted.nodup).mpr ⟨hrules, fun name check fragment hpart hfragment => ?_⟩
  simp only [List.mem_cons, Prod.mk.injEq, List.not_mem_nil, or_false] at hpart
  rcases hpart with ⟨rfl, rfl⟩ | ⟨rfl, rfl⟩ | ⟨rfl, rfl⟩ | ⟨rfl, rfl⟩
  · exact hparts _ _ _ (by simp) hfragment
  · exact Picture.check_again (hsorted.object? hfragment)
      (fun i value hvalue => h.structured hfragment hvalue) (hparts _ _ _ (by simp) hfragment)
  · refine Ports.check_again (p := a.ports) ?_ (hparts _ _ _ (by simp) hfragment)
    rw [h.ports, Ports.settled]
    split
    · rcases part_admitted state candidate "port_settings" with hsame | hnone
      · rw [hsame, Object.part, hfragment]
        exact .inr rfl
      · rw [hnone]
        exact .inl rfl
    · exact .inl rfl
  · exact hparts _ _ _ (by simp) hfragment

end Settles

/-! ### Settling again -/

/-- To say again what the sensor does not know changes nothing. -/
theorem restated_again {candidate : Object} {a a' : Common} {logLevel : UInt32} {picture : Picture}
    {ports : Ports} (h : a' = { a.restated candidate with logLevel, picture, ports }) :
    a'.restated candidate = a' := by
  subst h
  simp only [restated, ← Option.or_assoc, Option.or_self, Common.mk.injEq, true_and]
  refine ⟨?_, ?_⟩
  · cases Object.object? candidate "inference_settings" with
    | none => rfl
    | some fragment =>
        simp only [Option.elim_some, Inference.restated]
        cases Object.word? fragment "number_of_iterations" <;> rfl
  · cases Object.object? candidate "codec_settings" with
    | none => rfl
    | some fragment =>
        simp only [Option.elim_some, Codec.restated, ← Option.or_assoc, Option.or_self]

/-- A log level that has been taken is not asked for again. -/
theorem newLogLevel?_again {candidate : Object} {a a' : Common}
    (h : a'.logLevel = (a.newLogLevel? candidate).getD a.logLevel) :
    a'.newLogLevel? candidate = none := by
  unfold newLogLevel? at h ⊢
  cases hw : Object.word? candidate "log_level" with
  | none => rfl
  | some w =>
      have hlevel : a'.logLevel = w := by
        by_cases hsame : w = a.logLevel
        · rw [h, hw, Option.filter_some, if_neg (by simpa using hsame)]
          exact hsame.symm
        · rw [h, hw, Option.filter_some, if_pos (by simpa using hsame)]
          rfl
      rw [Option.filter_some, hlevel, if_neg (by simp)]

end Common

/-! ### Updating again -/

namespace Document

/-- The verdict on a candidate looks at nothing but the common section. -/
theorem verify_congr {d d' : Document} (h : d'.common = d.common) (candidate : Object) :
    (d'.verify candidate).1 = (d.verify candidate).1 := by
  show Check.object rules [_, _, ("common_settings", d'.common.check), _] candidate =
    Check.object rules [_, _, ("common_settings", d.common.check), _] candidate
  rw [h]

section

variable [Sensor S] [Hook H] (state : ProcessState) (text : String) (k : Collaborators S H)
  (d : Document)

/-- The id of a request is as the first update has left it. -/
theorem request_again :
    let first := d.update state text k
    (first.document.update state text first.collaborators).document.request =
      first.document.request := by
  intro first
  cases htext : Object.ofText? text with
  | none =>
      obtain ⟨e, hupdate⟩ := update_of_not_object htext state first.collaborators first.document
      rw [hupdate]
  | some candidate =>
      obtain ⟨hfirst, -⟩ := update_taken htext state k d
      obtain ⟨hsecond, -⟩ := update_taken htext state first.collaborators first.document
      refine congrArg Request.mk (hsecond.trans ?_)
      show (idOf? candidate).getD (d.update state text k).document.request.id =
        (d.update state text k).document.request.id
      rw [hfirst]
      unfold idAfter
      cases idOf? candidate <;> rfl

/-- Settings that have been handed over once are not new any more, whatever the application has
answered. -/
theorem newSettings?_again (hverdict : ∀ candidate, Object.ofText? text = some candidate →
      ((d.update state text k).document.verify candidate).1 = (d.verify candidate).1) :
    (d.update state text k).document.newSettings? text = none := by
  refine Option.eq_none_iff_forall_ne_some.mpr fun settings hsome => ?_
  obtain ⟨candidate, htext, hverify, hsettings, hnew⟩ := newSettings?_eq_some.mp hsome
  rw [hverdict candidate htext] at hverify
  have hdelivers :=
    update_delivers (sectionOf?_eq_some.mpr ⟨candidate, htext, hverify, hsettings⟩) state k
  have hcustom := congrArg Prod.fst hdelivers
  simp only [Custom.deliver] at hcustom
  rw [hcustom] at hnew
  split at hnew
  · rename_i hunchanged
    rw [hunchanged] at hnew
    cases hnew
  · rw [Custom.unchanged_kept_self] at hnew
    cases hnew

end

section

variable [Hook H] (state : ProcessState) (text : String) (k : Collaborators Simulator H)
  (d : Document)

/-- A candidate gets the verdict again that it got before its update. -/
theorem verdict_again {candidate : Object} (htext : Object.ofText? text = some candidate) :
    ((d.update state text k).document.verify candidate).1 = (d.verify candidate).1 := by
  cases hcommon : d.sectionOf? "common_settings" text with
  | none =>
      exact verify_congr ((update_of_sectionOf?_none hcommon state k).1 rfl).1 candidate
  | some settings =>
      obtain ⟨other, hother, hverify, hsettings⟩ := sectionOf?_eq_some.mp hcommon
      obtain rfl : candidate = other := Option.some.inj (htext.symm.trans hother)
      rw [hverify]
      have hsorted := Object.sorted_of_ofText? htext
      obtain ⟨-, hsettles⟩ := update_settles hcommon state k
      have hagain := hsettles.check_again (hsorted.object? hsettings)
        (common_passes hverify hsettings)
      obtain ⟨hrules, hparts⟩ := Check.of_object hverify
      refine (Check.object_iff hsorted.nodup).mpr
        ⟨hrules, fun name check fragment hpart hfragment => ?_⟩
      simp only [List.mem_cons, Prod.mk.injEq, List.not_mem_nil, or_false] at hpart
      rcases hpart with ⟨rfl, rfl⟩ | ⟨rfl, rfl⟩ | ⟨rfl, rfl⟩ | ⟨rfl, rfl⟩
      · exact hparts _ _ _ (by simp) hfragment
      · exact hparts _ _ _ (by simp) hfragment
      · obtain rfl : settings = fragment := Option.some.inj (hsettings.symm.trans hfragment)
        exact hagain
      · exact hparts _ _ _ (by simp) hfragment

theorem sectionOf?_again (name : String) :
    (d.update state text k).document.sectionOf? name text = d.sectionOf? name text := by
  unfold sectionOf?
  refine Option.bind_congr fun candidate htext => ?_
  rw [verdict_again state text k d htext]

/-- The common section and what the sensor stores are as the first update has left them. -/
theorem common_again :
    let first := d.update state text k
    let second := first.document.update state text first.collaborators
    second.document.common = first.document.common ∧
      second.collaborators.sensor.stored = first.collaborators.sensor.stored := by
  intro first second
  have hagain : first.document.sectionOf? "common_settings" text = _ :=
    sectionOf?_again state text k d "common_settings"
  cases hcommon : d.sectionOf? "common_settings" text with
  | none =>
      obtain ⟨hsame, hsensor⟩ :=
        (update_of_sectionOf?_none (hagain.trans hcommon) state first.collaborators).1 rfl
      exact ⟨hsame, congrArg Simulator.stored hsensor⟩
  | some settings =>
      obtain ⟨hfirst, hsettles⟩ := update_settles hcommon state k
      obtain ⟨hsecond, hsettles'⟩ :=
        update_settles (hagain.trans hcommon) state first.collaborators
      obtain ⟨hpicture, hports, hstored⟩ := hsettles.again hsettles'
      have hlevel := Common.newLogLevel?_again (congrArg Common.logLevel hfirst)
      refine ⟨hsecond.trans ?_, hstored⟩
      rw [Common.restated_again hfirst, hlevel, hpicture, hports]
      rfl

end

/-- **An update that is made twice has no further effect the second time.**  The candidate gets the
same verdict, the document keeps its request and its sections, the sensor keeps what it stores, and
the application is not called, whatever it and the sensor have answered the first time. -/
theorem update_twice [Hook H] (state : ProcessState) (text : String)
    (k : Collaborators Simulator H) (d : Document) :
    let first := d.update state text k
    let second := first.document.update state text first.collaborators
    (∀ candidate, Object.ofText? text = some candidate →
      (first.document.verify candidate).1 = (d.verify candidate).1) ∧
    second.document.request = first.document.request ∧
    second.document.common = first.document.common ∧
    second.document.custom = first.document.custom ∧
    second.collaborators.sensor.stored = first.collaborators.sensor.stored ∧
    second.collaborators.hook = first.collaborators.hook ∧
    (first.document.update state text first.collaborators.recorded).collaborators.hook.calls =
      [] := by
  intro first second
  obtain ⟨hcommon, hstored⟩ := common_again state text k d
  have hverdict : ∀ candidate, Object.ofText? text = some candidate →
      (first.document.verify candidate).1 = (d.verify candidate).1 :=
    fun candidate => verdict_again state text k d
  have hnothing := newSettings?_again state text k d hverdict
  obtain ⟨hcustom, hhook⟩ := update_of_nothing_new hnothing state first.collaborators
  have hrecorded := update_of_nothing_new hnothing state first.collaborators.recorded
  exact ⟨hverdict, request_again state text k d, hcommon, hcustom, hstored, hhook,
    congrArg HookRecorder.calls hrecorded.2⟩

end Document

end DeviceConfig
