/-
What a running device refuses would change something, if it is told in full.

The refusal is decided on what a candidate says, section by section, and what a candidate changes is
decided field by field.  The two come apart as soon as a candidate leaves something out: `{}` is not
what a document shows of its picture, and yet it changes nothing.  They come apart as well where a
number is spelled in another way than it is shown, as `1` for `1.0`.

So sections are looked at that are spelled in full.  They are what some document shows, and that
shows something wherever this one does.  If an idle device has nothing to do for them, then every
slot held what it was asked to hold.  It follows that the sections are what is shown already.
-/
import DeviceConfig.Proofs.Domain
import DeviceConfig.Proofs.Parts
import DeviceConfig.Proofs.Paths
import DeviceConfig.Proofs.Spelling
import DeviceConfig.Proofs.Turns

namespace DeviceConfig

variable {S H : Type}

/-! ### The picture section -/

/-- What is shown of a value made of fields is an object, whether or not the value is known. -/
theorem Description.object_of_same {α : Type} (d : Description α) {known : Option α} {v : Json}
    (h : v.same (d.toJson known) = true) : ∃ fragment, v = .object fragment := by
  cases known with
  | none | some a =>
      obtain ⟨fragment, rfl, -⟩ := Json.object_of_same h
      exact ⟨fragment, rfl⟩

namespace Picture

variable [Sensor S] {candidate : Object} {p q : Picture} {c : Cycle S H}

namespace Turn

/-- A turn does not make a sensor any less willing. -/
theorem apply_willing (t : Turn) (p : Picture) (hc : Sensor.Willing c.sensor) :
    Sensor.Willing (t.apply candidate p c).cycle.sensor := by
  have hcourse : Sensor.Course (S := S) (fun _ => True)
      fun s s' => Sensor.Willing s → Sensor.Willing s' :=
    ⟨fun _ => id, fun h h' hs => h' (h hs), fun _ _ hs => hs.next _⟩
  exact hcourse.turn (fun _ _ => trivial) p c hc

/-- The slot of a turn that is not taken is left alone. -/
theorem held_all_of_not_mem {t : Turn} {turns : List Turn} (ht : t ∉ turns) (p : Picture)
    (c : Cycle S H) :
    t.held (Step.all (turns.map (apply candidate)) p c).value = t.held p := by
  have hcourse : Step.Course fun p (_ : Cycle S H) p' _ => t.held p' = t.held p :=
    ⟨fun _ _ => rfl, fun h h' => h'.trans h⟩
  refine hcourse.all (fun f hf => ?_) p c
  obtain ⟨t', ht', rfl⟩ := List.mem_map.mp hf
  exact held_apply_of_ne fun heq => ht (heq ▸ ht')

/-- What a slot holds after all turns is what its own turn has made of it. -/
theorem held_all {t : Turn} {turns : List Turn} (hturns : turns.Nodup) (ht : t ∈ turns) :
    ∀ (p : Picture) (c : Cycle S H), Sensor.Willing c.sensor →
      ∃ (p' : Picture) (c' : Cycle S H), Sensor.Willing c'.sensor ∧ t.held p' = t.held p ∧
        t.held (Step.all (turns.map (apply candidate)) p c).value =
          t.held (t.apply candidate p' c').value := by
  induction turns with
  | nil => cases ht
  | cons t' rest ih =>
      rw [List.nodup_cons] at hturns
      intro p c hc
      by_cases heq : t = t'
      · subst heq
        exact ⟨p, c, hc, rfl, held_all_of_not_mem hturns.1 _ _⟩
      · have hrest : t ∈ rest := (List.mem_cons.mp ht).resolve_left heq
        obtain ⟨p', c', hc', hheld, hafter⟩ := ih hturns.2 hrest _ _ (apply_willing t' p hc)
        exact ⟨p', c', hc', hheld.trans (held_apply_of_ne heq p c), hafter⟩

end Turn

/-- What a slot holds in the end is what its own turn has made of it. -/
theorem held_apply (candidate : Object) (hc : Sensor.Willing c.sensor) (p : Picture) (t : Turn) :
    ∃ (p' : Picture) (c' : Cycle S H), Sensor.Willing c'.sensor ∧ t.held p' = t.held p ∧
      t.held (apply candidate p c).value = t.held (t.apply candidate p' c').value := by
  rw [apply_turns]
  exact Turn.held_all Turn.nodup_all t.mem_all p c hc

/-- A property that is asked for is held in the end, unless it was held before and one that is equal
to it still is. -/
theorem Item.value?_apply (hc : Sensor.Willing c.sensor) {i : Item} {r : Property}
    (hasked : i.asked? p candidate = some r) :
    let after := (apply candidate p c).value
    i.value? after = some r ∨
      ∃ r', i.value? p = some r' ∧ (r' == r) = true ∧ i.value? after = some r' := by
  intro after
  obtain ⟨p', c', hc', hheld, hafter⟩ := held_apply candidate hc p (Turn.item i)
  replace hheld : i.value? p' = i.value? p := hheld
  replace hafter : i.value? after = i.value? ((Turn.item i).apply candidate p' c').value := hafter
  rw [hafter, i.apply_eq, asked?_congr hheld, hasked, Step.whenSome, commit,
    Step.afterPush_of_willing hc', Step.renew]
  by_cases hsame : (i.value? p' == some r) = true
  · right
    rw [if_pos hsame, hheld]
    rw [hheld] at hsame
    cases hvalue : i.value? p with
    | none =>
        rw [hvalue] at hsame
        cases hsame
    | some r' =>
        rw [hvalue] at hsame
        exact ⟨r', rfl, hsame, rfl⟩
  · left
    rw [if_neg hsame]
    exact value?_put (key_of_asked? hasked) p'

/-- In a section that does not change, a property that is asked for is there already. -/
theorem Item.held_of_unchanged (hc : Sensor.Willing c.sensor)
    (h : (apply candidate p c).value = p) {i : Item} {r : Property}
    (hasked : i.asked? p candidate = some r) :
    ∃ r', i.value? p = some r' ∧ (r' = r ∨ (r' == r) = true) := by
  rcases value?_apply hc hasked with hnew | ⟨r', hr', hequal, -⟩
  · rw [h] at hnew
    exact ⟨r, hnew, .inl rfl⟩
  · exact ⟨r', hr', .inr hequal⟩

/-- In a section that does not change, register writes that are asked for are there already. -/
theorem registers_of_unchanged (hc : Sensor.Willing c.sensor)
    (h : (apply candidate p c).value = p) {entries : List Json}
    {writes : List RegisterWrite.Fitting}
    (hentries : Object.array? candidate "register_access" = some entries)
    (hlength : entries.length ≤ RegisterWrite.maxEntries)
    (hwrites : entries.map RegisterWrite.ofJson? = writes.map some) : p.registers = writes := by
  obtain ⟨p', c', hc', -, hafter⟩ := held_apply candidate hc p .registers
  rw [h] at hafter
  replace hafter : p.registers = (applyRegisters candidate p' c').value.registers := hafter
  rw [applyRegisters, hentries] at hafter
  exact hafter.trans (RegisterWrite.apply_of_willing hlength hwrites p'.registers hc')

/-- Sections show the same if they hold the same register writes and show the same otherwise. -/
theorem same_of_parts
    (hscalars : ∀ s : Scalar, (s.toJson q.scalars).same (s.toJson p.scalars) = true)
    (hregisters : p.registers = q.registers)
    (hstructured : ∀ s : Structured, (s.description.toJson (q.structured.get? s)).same
      (s.description.toJson (p.structured.get? s)) = true) : q.toJson.same p.toJson = true := by
  refine Json.same_ofMembers (List.rel_append (Json.forall₂_map fun s _ => hscalars s)
    (.cons ⟨rfl, ?_⟩ (Json.forall₂_map fun s _ => hstructured s)))
  rw [hregisters]
  exact Json.same_self _

/-- A scalar that a candidate spells and does not change is shown as it is spelled. -/
theorem scalar_of_unchanged {s : Scalar} (hkind : ∀ r, q.scalars.get? s = some r → r.key = s.key)
    (hspelled : (Json.object candidate).same q.toJson = true)
    (hrules : Rule.checkAll rules candidate = .ok ()) (hc : Sensor.Willing c.sensor)
    (h : (apply candidate p c).value = p) :
    (s.toJson q.scalars).same (s.toJson p.scalars) = true := by
  obtain ⟨v, hv, hsame⟩ := field?_of_same hspelled (q.scalar_mem s)
  have hnumber : Rule.number s.field ∈ s.rules := by
    cases s <;> simp [Scalar.rules, Rule.range]
  have hadmits := Rule.admits_of_checkAll hrules (s.rules_subset hnumber) hv
  obtain ⟨x, hx⟩ : ∃ x, v.double? = some x := by
    cases v with
    | number n => exact ⟨n.toDouble, rfl⟩
    | _ => cases hadmits
  have hasked : Item.asked? p candidate (.scalar s) = some (s.property x) := by
    rw [Item.asked?, Object.double?_of_field? hv, hx]
    rfl
  obtain ⟨r', hr', hequal⟩ := Item.held_of_unchanged hc h hasked
  replace hr' : p.scalars.get? s = some r' := hr'
  cases hr : q.scalars.get? s with
  | none =>
      rw [Scalar.toJson, hr] at hsame
      rw [Json.eq_null_of_same hsame] at hx
      cases hx
  | some r =>
      rw [Scalar.toJson, hr] at hsame ⊢
      rw [Scalar.toJson, hr']
      have hshown := Scalar.valueToJson_property (hkind r hr) hsame hx
      rcases hequal with rfl | hequal
      · exact hshown
      · refine Json.same_trans _ hshown ?_
        rw [Json.same_comm]
        exact Scalar.valueToJson_of_beq hequal

/-- A structured property that a candidate spells and does not change is shown as it is spelled, if
it is spelled wherever it is known. -/
theorem structured_of_unchanged {s : Structured}
    (hknown : (p.structured.get? s).isSome → (q.structured.get? s).isSome)
    (hspelled : (Json.object candidate).same q.toJson = true)
    (hcheck : ∀ fragment, Object.object? candidate s.field = some fragment →
      p.checkStructured s fragment = .ok ())
    (hc : Sensor.Willing c.sensor) (h : (apply candidate p c).value = p) :
    (s.description.toJson (q.structured.get? s)).same
      (s.description.toJson (p.structured.get? s)) = true := by
  obtain ⟨v, hv, hsame⟩ := field?_of_same hspelled (q.structured_mem s)
  obtain ⟨fragment, rfl⟩ := s.description.object_of_same hsame
  have hfragment := Object.object?_of_field? hv
  have hasked : Item.asked? p candidate (.structured s) =
      some (s.property (s.description.merged fragment (p.structured.get? s))) := by
    rw [Item.asked?, hfragment]
    rfl
  obtain ⟨r', hr', hequal⟩ := Item.held_of_unchanged hc h hasked
  obtain ⟨b, hb, rfl⟩ := Option.map_eq_some_iff.mp hr'
  obtain ⟨a, ha⟩ := Option.isSome_iff_exists.mp (hknown (by rw [hb]; rfl))
  rw [ha] at hsame ⊢
  rw [hb]
  obtain ⟨hfields, -⟩ := Verdict.bind_eq_ok.mp (hcheck fragment hfragment)
  have hmerged := s.toJson_merged hsame hfields (p.structured.get? s)
  rcases hequal with hequal | hequal
  · rw [s.property_injective hequal]
    exact hmerged
  · refine Json.same_trans _ hmerged ?_
    rw [Json.same_comm]
    exact s.valueToJson_of_beq ((Property.mk_beq_mk s.key _ _).symm.trans hequal)

/-- **A section that a candidate spells in full and does not change is shown as it is spelled.** -/
theorem same_of_unchanged (hkind : ∀ s r, q.scalars.get? s = some r → r.key = s.key)
    (hknown : ∀ s, (p.structured.get? s).isSome → (q.structured.get? s).isSome)
    (hspelled : (Json.object candidate).same q.toJson = true)
    (hcheck : p.check candidate = .ok ()) (hc : Sensor.Willing c.sensor)
    (h : (apply candidate p c).value = p) : (Json.object candidate).same p.toJson = true := by
  obtain ⟨hrules, hstructured, hregisters⟩ := of_check hcheck
  have hlist : p.registers = q.registers := by
    obtain ⟨v, hv, hsame⟩ := field?_of_same hspelled q.registers_mem
    cases v with
    | array entries =>
        have hentries := Object.array?_of_field? hv
        have hlength := (RegisterWrite.of_check (hregisters _ hentries)).1
        exact registers_of_unchanged hc h hentries hlength
          (RegisterWrite.ofJson?_of_sameItems hsame)
    | _ => cases hsame
  refine Json.same_trans _ hspelled (same_of_parts (fun s => ?_) hlist fun s => ?_)
  · exact scalar_of_unchanged (hkind s) hspelled hrules hc h
  · exact structured_of_unchanged (hknown s) hspelled (hstructured s) hc h

end Picture

/-! ### Wherever something is shown -/

/-- Wherever one value shows something, so does another. -/
def Json.Covers (v w : Json) : Prop := ∀ path, (w.under? path).isSome → (v.under? path).isSome

namespace Json.Covers

variable {v w v' w' : Json}

/-- What covers a value covers it under every key. -/
theorem member (h : v.Covers w) {key : String}
    (hv : ∀ rest, v.under? (key :: rest) = v'.under? rest)
    (hw : ∀ rest, w.under? (key :: rest) = w'.under? rest) : v'.Covers w' := by
  intro path
  rw [← hv, ← hw]
  exact h (key :: path)

/-- A field that says nothing new, and says something where there is something, is no other. -/
theorem eq_of_or {β : Type} {write : β → Json} {key : String} {old new : Option β}
    (h : v.Covers w) (hv : v.under? [key] = new.map write) (hw : w.under? [key] = old.map write)
    (hor : new.or old = old) : new = old := by
  have hcovers := h [key]
  rw [hv, hw, Option.isSome_map, Option.isSome_map] at hcovers
  cases new with
  | some x => exact hor
  | none =>
      cases old with
      | none => rfl
      | some y => cases hcovers rfl

end Json.Covers

/-! ### Ports and codec -/

theorem Port.under?_member {p : Port} {key : String} {found : Option Json}
    (h : (key, found) ∈ p.members) : p.toJson.under? [key] = found :=
  (Json.under?_ofOptions p.members_nodup h []).trans (Option.bind_fun_some found)

/-- A port that is spelled in full and leaves another as it is, is no other. -/
theorem Port.eq_of_merge {p q : Port} {fragment : Object} (hcovers : q.toJson.Covers p.toJson)
    (hspelled : (Json.object fragment).same q.toJson = true) (h : p.merge fragment = p) :
    q = p := by
  have hfield : ∀ {β : Type} (write : β → Json) (key : String) {old new : Option β},
      (key, new.map write) ∈ q.members → (key, old.map write) ∈ p.members → new.or old = old →
      new = old :=
    fun _ _ _ _ hq hp hor => hcovers.eq_of_or (under?_member hq) (under?_member hp) hor
  rw [merge_shown hspelled] at h
  have hmethod : q.method = p.method :=
    hfield .word "method" (by simp [members]) (by simp [members]) (congrArg method h)
  have hstorage : q.storageName = p.storageName :=
    hfield .string "storage_name" (by simp [members]) (by simp [members]) (congrArg storageName h)
  have hendpoint : q.endpoint = p.endpoint :=
    hfield .string "endpoint" (by simp [members]) (by simp [members]) (congrArg endpoint h)
  have hpath : q.path = p.path :=
    hfield .string "path" (by simp [members]) (by simp [members]) (congrArg path h)
  have henabled : q.enabled = p.enabled :=
    hfield .bool "enabled" (by simp [members]) (by simp [members]) (congrArg enabled h)
  rw [← h, ← hmethod, ← hstorage, ← hendpoint, ← hpath, ← henabled]
  simp only [Option.or_self]

namespace Ports

/-- The members of the section as it is shown. -/
def members (p : Ports) : List (String × Json) :=
  [("metadata", p.metadata.toJson), ("input_tensor", p.inputTensor.toJson)]

theorem members_nodup (p : Ports) : (p.members.map Prod.fst).Nodup := by
  show ["metadata", "input_tensor"].Nodup
  decide

/-- Ports that are spelled in full and leave others as they are, are no others. -/
theorem eq_of_merge {p q : Ports} {candidate : Object} (hcovers : q.toJson.Covers p.toJson)
    (hspelled : (Json.object candidate).same q.toJson = true) (h : p.merge candidate = p) :
    q = p := by
  have hport : ∀ {name : String} {new old : Port}, (name, new.toJson) ∈ q.members →
      (name, old.toJson) ∈ p.members → mergeField candidate name old = old → new = old := by
    intro name new old hnew hold hmerge
    obtain ⟨v, hv, hsame⟩ := Json.field?_of_same_ofMembers q.members_nodup hspelled hnew
    obtain ⟨fragment, rfl, hmembers⟩ := Json.object_of_same hsame
    rw [mergeField, Object.object?_of_field? hv] at hmerge
    exact Port.eq_of_merge (hcovers.member (Json.under?_ofMembers q.members_nodup hnew)
      (Json.under?_ofMembers p.members_nodup hold)) hmembers hmerge
  have hmetadata : q.metadata = p.metadata :=
    hport (by simp [members]) (by simp [members]) (congrArg metadata h)
  have hinput : q.inputTensor = p.inputTensor :=
    hport (by simp [members]) (by simp [members]) (congrArg inputTensor h)
  show (⟨q.metadata, q.inputTensor⟩ : Ports) = _
  rw [hmetadata, hinput]

/-- Ports that an attempt leaves as they are have nothing put into them. -/
theorem merge_of_unchanged [Sensor S] {p : Ports} {candidate : Object} {c : Cycle S H}
    (hc : Sensor.Willing c.sensor) (h : (apply candidate p c).value = p) :
    p.merge candidate = p := by
  simp only [apply_eq] at h
  by_cases hmerge : p.merge candidate = p
  · exact hmerge
  · rw [if_neg hmerge, Step.afterPush_of_willing hc] at h
    exact h

end Ports

/-- A codec section that is spelled in full and leaves another as it is, is no other. -/
theorem Codec.eq_of_restated {a b : Codec} {candidate : Object} (hcovers : b.toJson.Covers a.toJson)
    (hspelled : (Json.object candidate).same b.toJson = true) (h : a.restated candidate = a) :
    b = a := by
  have hunder : ∀ c : Codec, c.toJson.under? ["format"] = c.format.map .word := by
    intro c
    have hnames : ([("format", c.format.map Json.word)].map Prod.fst).Nodup :=
      List.pairwise_singleton _ _
    exact (Json.under?_ofOptions hnames List.mem_cons_self []).trans (Option.bind_fun_some _)
  have hor : b.format.or a.format = a.format := by
    rw [← word?_of_same hspelled]
    exact congrArg format h
  have hformat : b.format = a.format := hcovers.eq_of_or (hunder b) (hunder a) hor
  show (⟨b.format⟩ : Codec) = _
  rw [hformat]

/-! ### The common section -/

namespace Common

/-- What a candidate says of the picture, the ports and the codec is what a section shows of them,
and what the section has for a scalar is of its own kind. -/
structure Spells (b : Common) (settings : Object) : Prop where
  picture : differs settings "pq_settings" b.picture.toJson = false
  ports : differs settings "port_settings" b.ports.toJson = false
  codec : differs settings "codec_settings" b.codec.toJson = false
  ownKind : ∀ s r, b.picture.scalars.get? s = some r → r.key = s.key

/-- A structured property is shown field by field if it is known. -/
theorem isSome_under?_structured (a : Common) (s : Structured) {f : Field s.Value}
    (hf : f ∈ s.description.fields) :
    (a.toJson.under? ["pq_settings", s.field, f.name]).isSome =
      (a.picture.structured.get? s).isSome := by
  have hpicture : ("pq_settings", some a.picture.toJson) ∈ a.members := by simp [members]
  have hshown := Json.under?_ofMembers a.picture.members_nodup (a.picture.structured_mem s) [f.name]
  replace hshown : a.picture.toJson.under? [s.field, f.name] = _ := hshown
  rw [under?_member hpicture, Option.bind_some, hshown]
  cases a.picture.structured.get? s with
  | none => rfl
  | some v =>
      have hmem : (f.name, f.toJson v) ∈ s.description.fields.map fun f => (f.name, f.toJson v) :=
        List.mem_map.mpr ⟨f, hf, rfl⟩
      have hnames : ((s.description.fields.map fun f => (f.name, f.toJson v)).map
          Prod.fst).Nodup := by
        rw [List.map_map]
        exact s.nodup_names
      show ((Json.ofMembers _).under? [f.name]).isSome = true
      rw [Json.under?_ofMembers hnames hmem]
      rfl

theorem known_of_covers {a b : Common} (h : b.toJson.Covers a.toJson) (s : Structured)
    (hknown : (a.picture.structured.get? s).isSome) : (b.picture.structured.get? s).isSome := by
  obtain ⟨f, hf⟩ : ∃ f, f ∈ s.description.fields := by
    cases s <;> exact ⟨_, List.mem_cons_self⟩
  rw [← isSome_under?_structured a s hf] at hknown
  rw [← isSome_under?_structured b s hf]
  exact h _ hknown

/-- A part that is spelled as it is shown does not differ. -/
theorem differs_eq_false {candidate : Object} {name : String} {current other : Json}
    (hspelled : differs candidate name other = false) (hobject : ∃ o, other = .object o)
    (h : ∀ fragment, Object.object? candidate name = some fragment →
      (Json.object fragment).same other = true → (Json.object fragment).same current = true) :
    differs candidate name current = false := by
  cases hv : Object.field? candidate name with
  | none => rw [differs, hv, Option.any_none]
  | some v =>
      have hsame : v.same other = true := by
        simpa [differs, hv, bne, BEq.beq] using hspelled
      obtain ⟨o, rfl⟩ := hobject
      obtain ⟨fragment, rfl, -⟩ := Json.object_of_same hsame
      simpa [differs, hv, bne, BEq.beq] using h fragment (Object.object?_of_field? hv) hsame

/-- **What is spelled in full and changes nothing in the stream is no change of the stream.** -/
theorem changesStream_of_unchanged [Sensor S] {a b : Common} (hcovers : b.toJson.Covers a.toJson)
    {settings : Object} (hspelled : b.Spells settings) (hcheck : a.check settings = .ok ())
    {c : Cycle S H} (hstate : c.state = .idle) (hc : Sensor.Willing c.sensor)
    (h : a.SameStream (apply settings a c).value) : a.changesStream settings = false := by
  obtain ⟨-, hparts⟩ := Check.of_object hcheck
  obtain ⟨c', hsensor, hvalue, -⟩ := apply_parts settings a c
  have hgiven : admitted c.state settings = settings := by rw [hstate]; rfl
  rw [hgiven] at hvalue
  rw [hvalue] at h
  have hc' : Sensor.Willing c'.sensor := by rwa [hsensor]
  let picture := a.pictureAttempt settings c'
  let between := (picture.map (·.cycle)).getD c'
  have hbetween : Sensor.Willing between.sensor := by
    simp only [between, picture, pictureAttempt]
    cases Object.object? settings "pq_settings" with
    | none => exact hc'
    | some fragment => exact Picture.apply_within Cycle.willing_frame fragment a.picture c' hc'
  have hpicture : (picture.map (·.value)).getD a.picture = a.picture := h.picture
  have hports : ((a.portsAttempt settings between).map (·.value)).getD a.ports = a.ports := h.ports
  have hcodec : (a.restated settings).codec = a.codec := h.codec
  have hnumber : (Object.word? settings "number_of_inference_per_message").or
      a.inferencePerMessage = a.inferencePerMessage := h.inferencePerMessage
  have hpart : ∀ (name : String) {v w : Json}, (name, some v) ∈ b.members →
      (name, some w) ∈ a.members → v.Covers w := fun _ _ _ hv hw =>
    hcovers.member (under?_member hv) (under?_member hw)
  simp only [changesStream, Bool.or_eq_false_iff]
  refine ⟨⟨⟨?_, ?_⟩, ?_⟩, ?_⟩
  · refine differs_eq_false hspelled.picture ⟨_, rfl⟩ fun fragment hfragment hsame => ?_
    simp only [picture, pictureAttempt, hfragment] at hpicture
    exact Picture.same_of_unchanged hspelled.ownKind (known_of_covers hcovers) hsame
      (hparts "pq_settings" _ _ (by simp) hfragment) hc' hpicture
  · refine differs_eq_false hspelled.ports ⟨_, rfl⟩ fun fragment hfragment hsame => ?_
    simp only [portsAttempt, hfragment] at hports
    have hcovered : b.ports.toJson.Covers a.ports.toJson :=
      hpart "port_settings" (by simp [members]) (by simp [members])
    have hmerge := Ports.merge_of_unchanged hbetween hports
    rwa [← Ports.eq_of_merge hcovered hsame hmerge]
  · refine differs_eq_false hspelled.codec ⟨_, rfl⟩ fun fragment hfragment hsame => ?_
    simp only [restated, hfragment] at hcodec
    have hcovered : b.codec.toJson.Covers a.codec.toJson :=
      hpart "codec_settings" (by simp [members]) (by simp [members])
    rwa [← Codec.eq_of_restated hcovered hsame hcodec]
  · cases hword : Object.word? settings "number_of_inference_per_message" with
    | none => rfl
    | some n =>
        rw [hword, Option.some_or] at hnumber
        rw [← hnumber, Option.any_some, bne_self_eq_false]

end Common

/-! ### The document -/

namespace Document

/-- **A running device does not refuse what changes nothing, if it is told in full.**  The parts of
the stream that a candidate has are as some section shows them that shows something wherever the
document does.  If such a candidate passes and an idle device would change nothing in the stream for
it, not even with a sensor that accepts everything, then a running device does not answer with the
refusal. -/
theorem unrefused_of_unchanged {S' H' : Type} [Sensor S] [Sensor S'] {d : Document} {b : Common}
    (hcovers : b.toJson.Covers d.common.toJson) {candidate settings : Object}
    (hspelled : b.Spells settings) (hverify : (d.verify candidate).1 = .ok ())
    (hsettings : Object.object? candidate "common_settings" = some settings)
    (k' : Collaborators S' H') (hwilling : Sensor.Willing k'.sensor)
    (hunchanged : d.common.SameStream
      (Common.apply settings d.common ((d.taken candidate).cycle .idle k')).value)
    (k : Collaborators S H) :
    (Common.apply settings d.common ((d.taken candidate).cycle .running k)).cycle.reply.answer ≠
      (.failedPrecondition, Common.refusal) := by
  have hsame : d.common.changesStream settings = false :=
    Common.changesStream_of_unchanged hcovers hspelled (common_passes hverify hsettings) rfl
      hwilling hunchanged
  rw [Common.apply_answer, hsame, if_neg (fun h => Bool.false_ne_true h.2)]
  show (greeting (d.idAfter candidate)).answer ≠ _
  intro h
  cases congrArg Prod.fst h

/-- A document that is told its own picture and ports is not refused. -/
theorem unrefused_of_unchanged_retold :
    let idle := Common.apply retold registered.common
      ((registered.taken retelling).cycle .idle ⟨Undemanding.mk, Indifferent.mk⟩)
    let running := Common.apply retold registered.common
      ((registered.taken retelling).cycle .running obliging)
    registered.common.toJson.Covers registered.common.toJson ∧ registered.common.Spells retold ∧
      (registered.verify retelling).1 = .ok () ∧
      Object.object? retelling "common_settings" = some retold ∧
      Sensor.Willing Undemanding.mk ∧ registered.common.SameStream idle.value ∧
      running.cycle.reply.answer ≠ (.failedPrecondition, Common.refusal) := by
  intro idle running
  have hspelled : registered.common.Spells retold :=
    ⟨by decide +kernel, by decide +kernel, by decide +kernel, settled_registered.ownKind⟩
  have hverify : (registered.verify retelling).1 = .ok () := by decide +kernel
  have hsame : registered.common.changesStream retold = false := by decide +kernel
  have hunchanged : registered.common.SameStream idle.value :=
    (Common.apply_keeps settled_registered (readable_of_passes hverify rfl) hsame
      registered.common _ (Undemanding.willing _) ⟨rfl, rfl, rfl, rfl⟩).1
  have hunrefused := unrefused_of_unchanged (fun _ h => h) hspelled hverify rfl
    ⟨Undemanding.mk, Indifferent.mk⟩ (Undemanding.willing _) hunchanged obliging
  exact ⟨fun _ h => h, hspelled, hverify, rfl, Undemanding.willing _, hunchanged, hunrefused⟩

/-- A picture section with the frame rate that there is, but for its denominator. -/
def rated : Object := [("frame_rate", .object [("num", .word 30)])]

/-- In a section with the same frame rate it changes nothing, and neither does it change the rest of
the stream. -/
theorem sameStream_rated [Sensor S] {a : Common}
    (h : a.picture.structured.get? .frameRate = some ⟨30, 1⟩) {c : Cycle S H}
    (hstate : c.state = .idle) (hc : Sensor.Willing c.sensor) :
    a.SameStream (Common.apply [("pq_settings", .object rated)] a c).value := by
  obtain ⟨c', hsensor, hvalue, -⟩ := Common.apply_parts [("pq_settings", .object rated)] a c
  have hgiven : Common.admitted c.state [("pq_settings", .object rated)] =
      [("pq_settings", .object rated)] := by
    rw [hstate]
    rfl
  rw [hgiven] at hvalue
  rw [hvalue]
  refine ⟨?_, rfl, rfl, rfl⟩
  show (Picture.apply rated a.picture c').value = a.picture
  refine Picture.Turn.ext_held fun t => ?_
  by_cases ht : t = .item (.structured .frameRate)
  · subst ht
    have hasked : Picture.Item.asked? a.picture rated (.structured .frameRate) =
        some (Structured.frameRate.property ⟨30, 1⟩) := by
      have hmerged : FrameRate.description.merged [("num", .word 30)] (some ⟨30, 1⟩) = ⟨30, 1⟩ :=
        eq_of_beq (by decide +kernel)
      show some (Structured.frameRate.property (FrameRate.description.merged [("num", .word 30)]
        (a.picture.structured.get? .frameRate))) = _
      rw [h, hmerged]
    rcases Picture.Item.value?_apply (by rwa [hsensor]) hasked with hnew | ⟨r, hr, -, hold⟩
    · refine hnew.trans ?_
      show _ = (a.picture.structured.get? .frameRate).map Structured.frameRate.property
      rw [h]
      rfl
    · exact hold.trans hr.symm
  · have hall : ∀ t ∈ Picture.Turn.all, t = .item (.structured .frameRate) ∨
        (Object.field? rated t.field).isNone = true := by decide
    have hnone := (hall t t.mem_all).resolve_left ht
    exact Picture.Turn.held_apply_of_absent (Option.isNone_iff_eq_none.mp hnone) a.picture c'

/-- A running device refuses a frame rate that is not told in full, although nothing changes. -/
theorem refused_of_partial :
    let settings : Object := [("pq_settings", .object rated)]
    let candidate : Object := [("common_settings", .object settings)]
    let idle := Common.apply settings registered.common
      ((registered.taken candidate).cycle .idle ⟨Undemanding.mk, Indifferent.mk⟩)
    let running := Common.apply settings registered.common
      ((registered.taken candidate).cycle .running obliging)
    (registered.verify candidate).1 = .ok () ∧
      Object.object? candidate "common_settings" = some settings ∧
      Sensor.Willing Undemanding.mk ∧ registered.common.SameStream idle.value ∧
      running.cycle.reply.answer = (.failedPrecondition, Common.refusal) := by
  intro settings candidate idle running
  have hrate : registered.common.picture.structured.get? .frameRate = some ⟨30, 1⟩ :=
    (Picture.get?_load_structured Simulator.powerOn {} .frameRate).trans rfl
  have hsame : registered.common.SameStream idle.value :=
    sameStream_rated hrate rfl (Undemanding.willing _)
  exact ⟨by decide +kernel, rfl, Undemanding.willing _, hsame, by decide +kernel⟩

end Document

end DeviceConfig
