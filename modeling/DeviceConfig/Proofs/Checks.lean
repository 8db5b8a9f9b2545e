/-
What a candidate that passes is known to have.

A check walks a candidate once, and its verdict is that of the first rule to be broken, so a
candidate that passes breaks none.  This is read off the checks from the document down to the
entries of the register list, which are the only values that a check and an application read in
different ways: a rule compares numbers, and an application cuts them down to words.  Whatever
passes can also be read.
-/
import DeviceConfig.Document
import DeviceConfig.Proofs.Objects
import DeviceConfig.Proofs.Rounding

namespace DeviceConfig

/-! ### Verdicts -/

namespace Verdict

theorem bind_eq_ok {v : Verdict} {next : Unit → Verdict} :
    (v >>= next) = .ok () ↔ v = .ok () ∧ next () = .ok () := by
  cases v with
  | error e =>
      constructor
      · intro h
        cases h
      · rintro ⟨h, -⟩
        cases h
  | ok _ => exact ⟨fun h => ⟨rfl, h⟩, fun h => h.2⟩

theorem eq_ok_of_forall_ne {v : Verdict} (h : ∀ e, v ≠ .error e) : v = .ok () := by
  cases v with
  | error e => exact absurd rfl (h e)
  | ok _ => rfl

/-- Several verdicts together are good if each of them is. -/
theorem forM_eq_ok {α : Type} {f : α → Verdict} {l : List α} :
    l.forM f = .ok () ↔ ∀ x ∈ l, f x = .ok () := by
  induction l with
  | nil => exact ⟨fun _ => nofun, fun _ => rfl⟩
  | cons x rest ih =>
      show (f x >>= fun _ => rest.forM f) = .ok () ↔ _
      rw [bind_eq_ok, ih, List.forall_mem_cons]

end Verdict

namespace Rule

variable {rules : List Rule} {candidate : Object} {name : String} {x : Double}

/-- An object that passes breaks no rule. -/
theorem admits_of_checkAll (h : checkAll rules candidate = .ok ()) {r : Rule} (hr : r ∈ rules)
    {v : Json} (hv : Object.field? candidate r.field = some v) : r.constraint.admits v = true := by
  have hfield := Verdict.forM_eq_ok.mp h _ (Object.mem_of_field? hv)
  have hrule : r.check v = .ok () :=
    Verdict.forM_eq_ok.mp hfield r (List.mem_filter.mpr ⟨hr, by simp⟩)
  unfold check at hrule
  split at hrule
  · assumption
  · cases hrule

/-- A word that is read from an object is a number of it, cut down. -/
theorem double?_of_word? {w : UInt32} (hw : Object.word? candidate name = some w) :
    ∃ x, Object.double? candidate name = some x ∧ x.toWord = w := by
  obtain ⟨v, hv, hword⟩ := Option.bind_eq_some_iff.mp hw
  obtain ⟨x, hx, hcut⟩ := Option.map_eq_some_iff.mp hword
  exact ⟨x, Option.bind_eq_some_iff.mpr ⟨v, hv, hx⟩, hcut⟩

/-- A number of an object that passes stands to every limit as it has to. -/
theorem holds_of_double? (h : checkAll rules candidate = .ok ())
    (hx : Object.double? candidate name = some x) {comparison : Comparison} {limit : Double}
    (hr : ⟨name, .bound comparison limit⟩ ∈ rules) : comparison.holds x limit = true := by
  obtain ⟨v, hv, hnumber⟩ := Option.bind_eq_some_iff.mp hx
  have hadmits := admits_of_checkAll h hr hv
  simpa only [Constraint.admits, hnumber] using hadmits

theorem toNat_toWord_le (h : checkAll rules candidate = .ok ())
    (hx : Object.double? candidate name = some x) {limit : Nat} (hlimit : limit < 4294967296)
    (hr : atMost name (OfNat.ofNat limit) ∈ rules) : x.toWord.toNat ≤ limit := by
  have hholds := holds_of_double? h hx hr
  simp only [Comparison.holds, decide_eq_true_eq] at hholds
  exact Double.toNat_toWord_le hlimit hholds

theorem le_toNat_toWord (h : checkAll rules candidate = .ok ())
    (hx : Object.double? candidate name = some x) {limit : Nat} (hlimit : limit < 4294967296)
    (hr : atLeast name (OfNat.ofNat limit) ∈ rules) : limit ≤ x.toWord.toNat := by
  have hholds := holds_of_double? h hx hr
  simp only [Comparison.holds, decide_eq_true_eq] at hholds
  exact Double.le_toNat_toWord hlimit hholds

/-- A whole number that is excluded is excluded as a word. -/
theorem toNat_toWord_ne (h : checkAll rules candidate = .ok ())
    (hx : Object.double? candidate name = some x) {limit : Nat} (hpos : 0 < limit)
    (hlimit : limit < 4294967295) (hr : differs name (OfNat.ofNat limit) ∈ rules)
    (hwhole : x.isWhole = true) : x.toWord.toNat ≠ limit := by
  have hholds := holds_of_double? h hx hr
  simp only [Comparison.holds, bne_iff_ne] at hholds
  exact Double.toNat_toWord_ne hwhole hpos hlimit hholds

/-- A number that is at most a whole number is no larger when it is read as a word. -/
theorem toNat_word?_le (h : checkAll rules candidate = .ok ()) {limit : Nat}
    (hlimit : limit < 4294967296) (hr : atMost name (OfNat.ofNat limit) ∈ rules) {w : UInt32}
    (hw : Object.word? candidate name = some w) : w.toNat ≤ limit := by
  obtain ⟨x, hx, rfl⟩ := double?_of_word? hw
  exact toNat_toWord_le h hx hlimit hr

/-- A number that is at least a whole number is no smaller when it is read as a word. -/
theorem le_toNat_word? (h : checkAll rules candidate = .ok ()) {limit : Nat}
    (hlimit : limit < 4294967296) (hr : atLeast name (OfNat.ofNat limit) ∈ rules) {w : UInt32}
    (hw : Object.word? candidate name = some w) : limit ≤ w.toNat := by
  obtain ⟨x, hx, rfl⟩ := double?_of_word? hw
  exact le_toNat_toWord h hx hlimit hr

end Rule

namespace Check

variable {rules : List Rule} {parts : List (String × Check)} {candidate : Object}

/-- An object that passes breaks no rule, and its parts pass. -/
theorem of_object (h : object rules parts candidate = .ok ()) :
    Rule.checkAll rules candidate = .ok () ∧
      ∀ name check fragment, (name, check) ∈ parts →
        Object.object? candidate name = some fragment → check fragment = .ok () := by
  obtain ⟨hmembers, hrules⟩ := Verdict.bind_eq_ok.mp h
  refine ⟨hrules, fun name check fragment hpart hfragment => ?_⟩
  have hmember : named parts name fragment = .ok () :=
    Verdict.forM_eq_ok.mp hmembers _ (Object.mem_of_field? (Object.field?_of_object? hfragment))
  have hnamed := Verdict.forM_eq_ok.mp hmember (name, check) hpart
  rwa [if_pos rfl] at hnamed

/-- **An object without a repeated key passes if and only if it breaks no rule and its parts
pass.** -/
theorem object_iff (hkeys : (candidate.map Prod.fst).Nodup) :
    object rules parts candidate = .ok () ↔
      Rule.checkAll rules candidate = .ok () ∧
        ∀ name check fragment, (name, check) ∈ parts →
          Object.object? candidate name = some fragment → check fragment = .ok () := by
  refine ⟨of_object, fun ⟨hrules, hparts⟩ => ?_⟩
  refine Verdict.bind_eq_ok.mpr ⟨Verdict.forM_eq_ok.mpr fun m hm => ?_, hrules⟩
  obtain ⟨name, v⟩ := m
  cases v with
  | object fragment =>
      have hfragment : Object.object? candidate name = some fragment := by
        rw [Object.object?, Object.field?_of_mem hkeys hm]
        rfl
      refine Verdict.forM_eq_ok.mpr fun part hpart => ?_
      by_cases hname : part.1 = name
      · rw [if_pos hname]
        exact hparts _ _ _ hpart (hname ▸ hfragment)
      · rw [if_neg hname]
  | _ => rfl

end Check

/-! ### Registers -/

namespace RegisterWrite

theorem isSome_ofIndex? {w : UInt32} (h : w.toNat ≤ 3) : (Width.ofIndex? w).isSome := by
  have hw : w = 0 ∨ w = 1 ∨ w = 2 ∨ w = 3 := by
    simp only [← UInt32.toNat_inj, UInt32.reduceToNat]
    omega
  rcases hw with rfl | rfl | rfl | rfl <;> rfl

/-- A field that is there and has to be a number can be read as a word. -/
theorem word?_of_number {entry : Object} {name : String} (h : Rule.checkAll rules entry = .ok ())
    (hrule : Rule.number name ∈ rules) (hhas : Object.has entry name = true) :
    ∃ w, Object.word? entry name = some w := by
  obtain ⟨v, hv⟩ := Option.isSome_iff_exists.mp hhas
  have hkind : (v.kind == .number) = true := Rule.admits_of_checkAll h hrule hv
  cases v with
  | number n => exact ⟨n.toDouble.toWord, by rw [Object.word?, hv]; rfl⟩
  | _ => cases hkind

/-- A list that passes is short enough, and each of its entries passes. -/
theorem of_check {entries : List Json} (h : check entries = .ok ()) :
    entries.length ≤ maxEntries ∧ ∀ v ∈ entries, checkEntry v = .ok () := by
  unfold check at h
  split at h
  · cases h
  · rename_i hlength
    exact ⟨Nat.le_of_not_lt hlength, Verdict.forM_eq_ok.mp h⟩

/-- An entry that passes describes a write. -/
theorem isSome_ofJson?_of_checkEntry {v : Json} (h : checkEntry v = .ok ()) :
    (ofJson? v).isSome := by
  cases v with
  | object entry =>
      obtain ⟨hrules, hrest⟩ := Verdict.bind_eq_ok.mp h
      split at hrest
      · cases hrest
      rename_i hpresent
      split at hrest
      · cases hrest
      rename_i haddress
      split at hrest
      · cases hrest
      rename_i hdata
      have hhas : ∀ name ∈ fields, Object.has entry name = true := by
        simpa using hpresent
      obtain ⟨bits, hbits⟩ := word?_of_number hrules (by simp [rules, Rule.range])
        (hhas "bit_length" (by simp [fields]))
      obtain ⟨id, hid⟩ := word?_of_number hrules (by simp [rules, Rule.range])
        (hhas "id" (by simp [fields]))
      have hlimit : bits.toNat ≤ 3 :=
        Rule.toNat_word?_le hrules (by decide) (by simp [rules, Rule.range]) hbits
      obtain ⟨width, hwidth⟩ := Option.isSome_iff_exists.mp (isSome_ofIndex? hlimit)
      rw [Option.isNone_iff_eq_none] at haddress hdata
      obtain ⟨address, haddress⟩ := Option.ne_none_iff_exists'.mp haddress
      obtain ⟨data, hdata⟩ := Option.ne_none_iff_exists'.mp hdata
      simp [ofJson?, Json.object?, ofEntry?, hbits, hwidth, hdata, hid, haddress]
  | _ => cases h

end RegisterWrite

/-! ### From the document down -/

/-- A candidate lists few enough register entries, and each of them describes a write. -/
def Picture.Readable (candidate : Object) : Prop :=
  ∀ entries, Object.array? candidate "register_access" = some entries →
    entries.length ≤ RegisterWrite.maxEntries ∧ ∀ v ∈ entries, (RegisterWrite.ofJson? v).isSome

/-- A picture section that passes breaks no rule, and all its parts pass. -/
theorem Picture.of_check {p : Picture} {candidate : Object} (h : p.check candidate = .ok ()) :
    Rule.checkAll rules candidate = .ok () ∧
      (∀ s fragment, Object.object? candidate (Structured.field s) = some fragment →
        p.checkStructured s fragment = .ok ()) ∧
      ∀ entries, Object.array? candidate "register_access" = some entries →
        RegisterWrite.check entries = .ok () := by
  obtain ⟨hobject, hregisters⟩ := Verdict.bind_eq_ok.mp h
  obtain ⟨hrules, hparts⟩ := Check.of_object hobject
  refine ⟨hrules, fun s fragment hfragment => ?_, fun entries hentries => ?_⟩
  · have hpart : (s.field, p.checkStructured s) ∈
        Structured.all.map fun s => (s.field, p.checkStructured s) :=
      List.mem_map.mpr ⟨s, by cases s <;> decide, rfl⟩
    exact hparts _ _ _ hpart hfragment
  · simp only [hentries] at hregisters
    exact hregisters

theorem Picture.readable_of_check {p : Picture} {candidate : Object}
    (h : p.check candidate = .ok ()) : Readable candidate := by
  intro entries hentries
  obtain ⟨hlength, hpass⟩ := RegisterWrite.of_check ((of_check h).2.2 entries hentries)
  exact ⟨hlength, fun v hv => RegisterWrite.isSome_ofJson?_of_checkEntry (hpass v hv)⟩

/-- The picture section of a candidate is readable, if there is one. -/
def Common.Readable (candidate : Object) : Prop :=
  ∀ fragment, Object.object? candidate "pq_settings" = some fragment → Picture.Readable fragment

theorem Common.readable_of_check {a : Common} {candidate : Object}
    (h : a.check candidate = .ok ()) : Readable candidate := by
  intro fragment hfragment
  have hpicture : a.picture.check fragment = .ok () :=
    (Check.of_object h).2 _ _ _ (by simp) hfragment
  exact Picture.readable_of_check hpicture

/-- What a state of the device admits of a readable candidate is readable. -/
theorem Common.Readable.admitted {candidate : Object} (h : Readable candidate)
    (state : ProcessState) : Readable (Common.admitted state candidate) := by
  unfold Common.admitted
  split
  · intro fragment hfragment
    simp [Object.object?, Object.field?_eraseAll, streamFields] at hfragment
  · exact h

/-- The common section of a document that passes passes too. -/
theorem Document.common_passes {d : Document} {candidate settings : Object}
    (hverify : (d.verify candidate).1 = .ok ())
    (hsettings : Object.object? candidate "common_settings" = some settings) :
    d.common.check settings = .ok () := by
  have hcheck : (d.correlate candidate).check candidate = .ok () := hverify
  exact (Check.of_object hcheck).2 _ _ _ (by simp [correlate]) hsettings

/-- The common section of a document that passes is readable. -/
theorem Document.readable_of_passes {d : Document} {candidate settings : Object}
    (hverify : (d.verify candidate).1 = .ok ())
    (hsettings : Object.object? candidate "common_settings" = some settings) :
    Common.Readable settings :=
  Common.readable_of_check (common_passes hverify hsettings)

end DeviceConfig
