/-
The first violation of a tree of rules.

A candidate can break a rule in many places at once, and the verdict on it names one of them.  A
`Site` is such a place: a way down the tree, a field of what is found there, and the place of a
rule in the table of the section.  `Before` is the order in which the sites are looked at.  What
is below a section comes before the section itself, and in either part the keys of the candidate
go first: only for one and the same key do the places of siblings, or of rules, matter.

That the verdict is the first violation in this order is kept when checks are put one after the
other, provided that what one of them looks at comes before what the next looks at.  So there is
one lemma about two checks, one about a list of them, and then an induction over the tree.
-/
import DeviceConfig.Proofs.Checks
import DeviceConfig.Proofs.Descent
import DeviceConfig.Proofs.Nesting

namespace DeviceConfig

/-! ### First faults -/

namespace Verdict

variable {α σ τ : Type}

/-- The verdict is the error of the first fault, or it is good and there is no fault. -/
def First (before : σ → σ → Prop) (faults : σ → ConfigError → Prop) : Verdict → Prop
  | .ok () => ∀ s e, ¬ faults s e
  | .error e => ∃ s, faults s e ∧ ∀ s' e', faults s' e' → s' = s ∨ before s s'

namespace First

variable {before : σ → σ → Prop} {faults faults' : σ → ConfigError → Prop} {v : Verdict}

theorem congr (h : First before faults v) (hiff : ∀ s e, faults s e ↔ faults' s e) :
    First before faults' v := by
  obtain rfl : faults = faults' := funext₂ fun s e => propext (hiff s e)
  exact h

theorem ok (h : ∀ s e, ¬ faults s e) : First before faults (.ok ()) := h

/-- Two checks, one after the other. -/
theorem bind {w : Verdict} (h : First before faults v) (h' : First before faults' w)
    (hcross : ∀ s e s' e', faults s e → faults' s' e' → before s s') :
    First before (fun s e => faults s e ∨ faults' s e) (v >>= fun _ => w) := by
  cases v with
  | ok _ => exact h'.congr fun s e => (or_iff_right (h s e)).symm
  | error e =>
      obtain ⟨s, hs, hleast⟩ := h
      refine ⟨s, .inl hs, fun s' e' hs' => ?_⟩
      rcases hs' with hs' | hs'
      · exact hleast s' e' hs'
      · exact .inr (hcross s e s' e' hs hs')

/-- Checks of the items of a list, in their order. -/
theorem forM {f : α → Verdict} :
    ∀ {l : List α} {faults : Nat → α → σ → ConfigError → Prop},
      (∀ i x, l[i]? = some x → First before (faults i x) (f x)) →
      (∀ i j x y s e s' e', i < j → l[i]? = some x → l[j]? = some y → faults i x s e →
        faults j y s' e' → before s s') →
      First before (fun s e => ∃ i x, l[i]? = some x ∧ faults i x s e) (l.forM f) := by
  intro l
  induction l with
  | nil =>
      intro faults _ _
      refine ok fun s e => ?_
      rintro ⟨i, x, hx, -⟩
      cases hx
  | cons x rest ih =>
      intro faults h hcross
      have hrest : First before (fun s e => ∃ i y, rest[i]? = some y ∧ faults (i + 1) y s e)
          (rest.forM f) :=
        ih (fun i y hy => h (i + 1) y hy) fun i j y z s e s' e' hij hy hz =>
          hcross (i + 1) (j + 1) y z s e s' e' (Nat.succ_lt_succ hij) hy hz
      have hboth := bind (h 0 x rfl) hrest (by
        rintro s e s' e' hs ⟨j, y, hy, hs'⟩
        exact hcross 0 (j + 1) x y s e s' e' (Nat.succ_pos j) rfl hy hs hs')
      refine hboth.congr fun s e => ?_
      constructor
      · rintro (hs | ⟨i, y, hy, hs⟩)
        · exact ⟨0, x, rfl, hs⟩
        · exact ⟨i + 1, y, hy, hs⟩
      · rintro ⟨i, y, hy, hs⟩
        cases i with
        | zero =>
            obtain rfl : x = y := Option.some.inj hy
            exact .inl hs
        | succ i => exact .inr ⟨i, y, hy, hs⟩

/-- The same faults under other names, which are in the same order. -/
theorem rename {faults : τ → ConfigError → Prop} {earlier : τ → τ → Prop} {g : τ → σ}
    (hg : ∀ s s', earlier s s' → before (g s) (g s')) (h : First earlier faults v) :
    First before (fun s e => ∃ s', s = g s' ∧ faults s' e) v := by
  cases v with
  | ok _ =>
      refine ok fun s e => ?_
      rintro ⟨s', -, hs'⟩
      exact h s' e hs'
  | error e =>
      obtain ⟨s, hs, hleast⟩ := h
      refine ⟨g s, ⟨s, rfl, hs⟩, ?_⟩
      rintro _ e' ⟨s', rfl, hs'⟩
      exact (hleast s' e' hs').imp (congrArg g) (hg s s')

end First

/-- A check of some of the items of a list passes over the others. -/
theorem forM_filter (f : α → Verdict) (p : α → Bool) (l : List α) :
    (l.filter p).forM f = l.forM fun x => if p x then f x else .ok () := by
  induction l with
  | nil => rfl
  | cons x rest ih =>
      show _ = (if p x then f x else .ok ()) >>= fun _ => rest.forM _
      cases hx : p x with
      | true =>
          rw [List.filter_cons_of_pos hx, ← ih]
          rfl
      | false =>
          rw [List.filter_cons_of_neg (by simp [hx]), ih]
          rfl

end Verdict

/-! ### Rules -/

/-- What a condition asks of a value.  A comparison asks nothing of what is not a number. -/
def Constraint.Met : Constraint → Json → Prop
  | .bound comparison limit, v => ∀ x, v.double? = some x → comparison.holds x limit = true
  | .kind k, v => v.kind = k

theorem Constraint.admits_iff {c : Constraint} {v : Json} : c.admits v = true ↔ c.Met v := by
  cases c with
  | kind k => exact beq_iff_eq
  | bound comparison limit =>
      cases h : v.double? with
      | none => simp [admits, Met, h]
      | some x => simp [admits, Met, h]

/-- The rule at some place of a table is about a field of an object, and the field breaks it. -/
def Rule.Broken (rules : List Rule) (o : Object) (field : String) (index : Nat)
    (e : ConfigError) : Prop :=
  ∃ r v, rules[index]? = some r ∧ r.field = field ∧ Object.field? o field = some v ∧
    ¬ r.constraint.Met v ∧ e = r.violation

namespace Tree

/-! ### Sites -/

/-- A place where a candidate can break a rule of a tree. -/
structure Site where
  way : List Branch
  field : String
  /-- The place of the rule in its table. -/
  index : Nat

/-- The same place seen from further up. -/
def Site.within (b : Branch) (s : Site) : Site := { s with way := b :: s.way }

/-- The order in which places are looked at. -/
inductive Site.Before : Site → Site → Prop where
  /-- What is below a section comes before its own rules. -/
  | deeper {b way f i g j} : Before ⟨b :: way, f, i⟩ ⟨[], g, j⟩
  /-- Fragments come by the order of their keys. -/
  | key {b b' : Branch} {way way' f i g j} (h : b.name < b'.name) :
      Before ⟨b :: way, f, i⟩ ⟨b' :: way', g, j⟩
  /-- Siblings of one name come by their places. -/
  | sibling {b b' : Branch} {way way' f i g j} (hname : b.name = b'.name)
      (h : b.index < b'.index) : Before ⟨b :: way, f, i⟩ ⟨b' :: way', g, j⟩
  /-- Within one fragment the order is that of the places there. -/
  | inside {b way way' f i g j} (h : Before ⟨way, f, i⟩ ⟨way', g, j⟩) :
      Before ⟨b :: way, f, i⟩ ⟨b :: way', g, j⟩
  /-- The fields of a section come by the order of their keys. -/
  | field {f g : String} {i j} (h : f < g) : Before ⟨[], f, i⟩ ⟨[], g, j⟩
  /-- The rules on one field come as they are in the table. -/
  | table {f : String} {i j : Nat} (h : i < j) : Before ⟨[], f, i⟩ ⟨[], f, j⟩

/-- Of two places only one can come before the other. -/
theorem Site.Before.asymm {s s' : Site} (h : s.Before s') : ¬ s'.Before s := by
  induction h with
  | deeper => nofun
  | key h =>
      intro h'
      cases h' with
      | key h' => exact lt_asymm h h'
      | sibling hname _ => exact ne_of_gt h hname
      | inside _ => exact lt_irrefl _ h
  | sibling hname h =>
      intro h'
      cases h' with
      | key h' => exact ne_of_gt h' hname
      | sibling _ h' => exact Nat.lt_asymm h h'
      | inside _ => exact Nat.lt_irrefl _ h
  | inside h ih =>
      intro h'
      cases h' with
      | key h' => exact lt_irrefl _ h'
      | sibling _ h' => exact Nat.lt_irrefl _ h'
      | inside h' => exact ih h'
  | field h =>
      intro h'
      cases h' with
      | field h' => exact lt_asymm h h'
      | table _ => exact lt_irrefl _ h
  | table h =>
      intro h'
      cases h' with
      | field h' => exact lt_irrefl _ h'
      | table h' => exact Nat.lt_asymm h h'

/-- What a candidate breaks at a place, and the error for it. -/
def Violates (t : Tree) (candidate : Object) (s : Site) (e : ConfigError) : Prop :=
  ∃ u fragment, descend? s.way t candidate = some (u, fragment) ∧
    Rule.Broken u.rules fragment s.field s.index e

/-- A place has at most one error. -/
theorem Violates.unique {t : Tree} {candidate : Object} {s : Site} {e e' : ConfigError}
    (h : t.Violates candidate s e) (h' : t.Violates candidate s e') : e = e' := by
  obtain ⟨u, fragment, hway, r, v, hr, -, -, -, rfl⟩ := h
  obtain ⟨u', fragment', hway', r', v', hr', -, -, -, rfl⟩ := h'
  obtain ⟨rfl, rfl⟩ := Prod.mk.inj (Option.some.inj (hway.symm.trans hway'))
  rw [Option.some.inj (hr.symm.trans hr')]

/-- What is broken below a section is broken below the child that the way goes through. -/
theorem violates_within {t : Tree} {candidate : Object} {b : Branch} {s : Site}
    {e : ConfigError} :
    t.Violates candidate (s.within b) e ↔
      ∃ u fragment, t.children[b.index]? = some (b.name, u) ∧
        Object.object? candidate b.name = some fragment ∧ u.Violates fragment s e := by
  constructor
  · rintro ⟨w, found, hway, hbroken⟩
    obtain ⟨u, fragment, hu, hfragment, hrest⟩ := descend?_cons.mp hway
    exact ⟨u, fragment, hu, hfragment, w, found, hrest, hbroken⟩
  · rintro ⟨u, fragment, hu, hfragment, w, found, hrest, hbroken⟩
    exact ⟨w, found, descend?_cons.mpr ⟨u, fragment, hu, hfragment, hrest⟩, hbroken⟩

/-! ### The order of the checks -/

/-- Of two members of an object the earlier one has the smaller key. -/
theorem key_lt {o : Object} (ho : (Json.object o).Sorted) {i j : Nat} {m m' : String × Json}
    (hij : i < j) (hm : o[i]? = some m) (hm' : o[j]? = some m') : m.1 < m'.1 := by
  obtain ⟨hi, rfl⟩ := List.getElem?_eq_some_iff.mp hm
  obtain ⟨hj, rfl⟩ := List.getElem?_eq_some_iff.mp hm'
  exact List.pairwise_iff_getElem.mp ho.ascending i j hi hj hij

/-- A table of rules finds the first of its rules that is broken. -/
theorem checkAll_first (rules : List Rule) {o : Object} (ho : (Json.object o).Sorted) :
    Verdict.First Site.Before
      (fun s e => s.way = [] ∧ Rule.Broken rules o s.field s.index e) (Rule.checkAll rules o) := by
  have hrule : ∀ (name : String) (v : Json) (i : Nat) (r : Rule), rules[i]? = some r →
      Verdict.First Site.Before (fun s e => s = ⟨[], name, i⟩ ∧ r.field = name ∧
        ¬ r.constraint.Met v ∧ e = r.violation)
        (if r.field == name then r.check v else .ok ()) := by
    intro name v i r hr
    by_cases hname : r.field = name
    · rw [if_pos (beq_iff_eq.mpr hname)]
      unfold Rule.check
      by_cases hmet : r.constraint.admits v = true
      · rw [if_pos hmet]
        exact .ok fun s e hs => hs.2.2.1 (Constraint.admits_iff.mp hmet)
      · rw [if_neg hmet]
        exact ⟨_, ⟨rfl, hname, fun h => hmet (Constraint.admits_iff.mpr h), rfl⟩,
          fun s' e' hs' => .inl hs'.1⟩
    · rw [if_neg (by simpa using hname)]
      exact .ok fun s e hs => hname hs.2.1
  have hfield : ∀ (i : Nat) (m : String × Json), o[i]? = some m →
      Verdict.First Site.Before (fun s e => ∃ j r, rules[j]? = some r ∧ s = ⟨[], m.1, j⟩ ∧
        r.field = m.1 ∧ ¬ r.constraint.Met m.2 ∧ e = r.violation)
        (Rule.checkField rules m.1 m.2) := by
    intro i m _
    unfold Rule.checkField
    rw [Verdict.forM_filter]
    refine Verdict.First.forM (hrule m.1 m.2) ?_
    rintro i j r r' s e s' e' hij - - ⟨rfl, -⟩ ⟨rfl, -⟩
    exact .table hij
  refine (Verdict.First.forM hfield ?_).congr fun s e => ?_
  · rintro i j m m' s e s' e' hij hm hm' ⟨_, _, -, rfl, -⟩ ⟨_, _, -, rfl, -⟩
    exact .field (key_lt ho hij hm hm')
  · obtain ⟨way, field, index⟩ := s
    constructor
    · rintro ⟨i, ⟨name, v⟩, hm, j, r, hr, hs, hname, hmet, he⟩
      cases hs
      exact ⟨rfl, r, v, hr, hname,
        Object.field?_of_mem ho.nodup (List.mem_of_getElem? hm), hmet, he⟩
    · rintro ⟨rfl, r, v, hr, hname, hv, hmet, he⟩
      obtain ⟨i, hi⟩ := List.mem_iff_getElem?.mp (Object.mem_of_field? hv)
      exact ⟨i, (field, v), hi, index, r, hr, rfl, hname, hmet, he⟩

/-- Of the children of one name, the first finds what it finds before the next is asked. -/
theorem named_first {children : List (String × Tree)} (name : String) {fragment : Object}
    (h : ∀ child ∈ children,
      Verdict.First Site.Before (child.2.Violates fragment) (child.2.check fragment)) :
    Verdict.First Site.Before
      (fun s e => ∃ i u, children[i]? = some (name, u) ∧
        ∃ s', s = Site.within ⟨name, i⟩ s' ∧ u.Violates fragment s' e)
      (Check.named (checks children) name fragment) := by
  have hchild : ∀ i part, (checks children)[i]? = some part →
      Verdict.First Site.Before
        (fun s e => ∃ u, children[i]? = some (name, u) ∧
          ∃ s', s = Site.within ⟨name, i⟩ s' ∧ u.Violates fragment s' e)
        (if part.1 = name then part.2 fragment else .ok ()) := by
    intro i part hpart
    rw [checks_eq_map, List.getElem?_map, Option.map_eq_some_iff] at hpart
    obtain ⟨⟨name', u⟩, hi, rfl⟩ := hpart
    by_cases hname : name' = name
    · subst hname
      rw [if_pos rfl]
      have hfirst := (h _ (List.mem_of_getElem? hi)).rename (g := Site.within ⟨name', i⟩)
        fun _ _ => Site.Before.inside
      exact hfirst.congr fun s e => by simp [hi]
    · rw [if_neg hname]
      exact .ok fun s e ⟨u', hu', _⟩ =>
        hname (congrArg Prod.fst (Option.some.inj (hi.symm.trans hu')))
  refine (Verdict.First.forM hchild ?_).congr fun s e => ?_
  · rintro i j - - s e s' e' hij - - ⟨_, -, _, rfl, -⟩ ⟨_, -, _, rfl, -⟩
    exact .sibling rfl hij
  · constructor
    · rintro ⟨i, -, -, hs⟩
      exact ⟨i, hs⟩
    · rintro ⟨i, u, hu, hs⟩
      exact ⟨i, (name, u.check), by simp [checks_eq_map, hu], u, hu, hs⟩

/-- The children of a section find what is broken first in the fragments. -/
theorem children_first {children : List (String × Tree)} {candidate : Object}
    (hsorted : (Json.object candidate).Sorted)
    (h : ∀ child ∈ children, ∀ {fragment : Object}, (Json.object fragment).Sorted →
      Verdict.First Site.Before (child.2.Violates fragment) (child.2.check fragment)) :
    Verdict.First Site.Before
      (fun s e => ∃ b s', s = Site.within b s' ∧ ∃ u fragment,
        children[b.index]? = some (b.name, u) ∧ Object.object? candidate b.name = some fragment ∧
          u.Violates fragment s' e)
      (candidate.forM fun m => Check.member (checks children) m.1 m.2) := by
  have hmember : ∀ (i : Nat) (m : String × Json), candidate[i]? = some m →
      Verdict.First Site.Before
        (fun s e => ∃ fragment, m.2 = .object fragment ∧ ∃ j u, children[j]? = some (m.1, u) ∧
          ∃ s', s = Site.within ⟨m.1, j⟩ s' ∧ u.Violates fragment s' e)
        (Check.member (checks children) m.1 m.2) := by
    rintro i ⟨name, v⟩ hm
    cases v with
    | object fragment =>
        have hfield := Object.field?_of_mem hsorted.nodup (List.mem_of_getElem? hm)
        have hnamed := named_first name fun child hchild => h child hchild
          (hsorted.object? (Object.object?_of_field? hfield))
        exact hnamed.congr fun s e => by simp
    | _ =>
        refine .ok fun s e hs => ?_
        obtain ⟨_, hobject, -⟩ := hs
        cases hobject
  refine (Verdict.First.forM hmember ?_).congr fun s e => ?_
  · rintro i j m m' s e s' e' hij hm hm' ⟨_, -, _, _, -, _, rfl, -⟩ ⟨_, -, _, _, -, _, rfl, -⟩
    exact .key (key_lt hsorted hij hm hm')
  · constructor
    · rintro ⟨i, ⟨name, v⟩, hm, fragment, rfl, j, u, hu, s', rfl, hviolates⟩
      have hfield := Object.field?_of_mem hsorted.nodup (List.mem_of_getElem? hm)
      exact ⟨⟨name, j⟩, s', rfl, u, fragment, hu, Object.object?_of_field? hfield, hviolates⟩
    · rintro ⟨⟨name, j⟩, s', rfl, u, fragment, hu, hfragment, hviolates⟩
      obtain ⟨i, hi⟩ := List.mem_iff_getElem?.mp
        (Object.mem_of_field? (Object.field?_of_object? hfragment))
      exact ⟨i, _, hi, fragment, rfl, j, u, hu, s', rfl, hviolates⟩

/-- **A tree finds the first of its rules that is broken.** -/
theorem check_first (t : Tree) : ∀ {candidate : Object}, (Json.object candidate).Sorted →
    Verdict.First Site.Before (t.Violates candidate) (t.check candidate) := by
  induction t using Tree.induction with
  | node rules failure stored children ih =>
      intro candidate hsorted
      have hboth := (children_first hsorted ih).bind (checkAll_first rules hsorted) (by
        rintro s e ⟨way, field, index⟩ e' ⟨b, s', rfl, -⟩ ⟨rfl, -⟩
        exact .deeper)
      refine hboth.congr fun s e => ?_
      obtain ⟨way, field, index⟩ := s
      constructor
      · rintro (⟨b, s', hs, hchild⟩ | ⟨rfl, hbroken⟩)
        · rw [hs]
          exact violates_within.mpr hchild
        · exact ⟨_, _, rfl, hbroken⟩
      · rintro hviolates
        cases way with
        | nil =>
            obtain ⟨_, _, ⟨⟩, hbroken⟩ := hviolates
            exact .inr ⟨rfl, hbroken⟩
        | cons b way =>
            have hchild := (violates_within (s := ⟨way, field, index⟩)).mp hviolates
            exact .inl ⟨b, ⟨way, field, index⟩, rfl, hchild⟩

/-- **The verdict on a candidate is its first violation.**  A tree accepts an object if and only if
every rule of every section that is reached through the object is met by the field that it is
about, if the field is there.  Otherwise the error is that of the first rule that is broken: what
is below a section comes before the section itself, fragments and fields come by the order of
their keys, and siblings of one name and rules on one field come in their own order. -/
theorem check_first_violation (t : Tree) {candidate : Object}
    (hsorted : (Json.object candidate).Sorted) :
    (t.check candidate = .ok () ↔
      ∀ way u fragment, descend? way t candidate = some (u, fragment) →
        ∀ r ∈ u.rules, ∀ v, Object.field? fragment r.field = some v → r.constraint.Met v) ∧
    ∀ e, t.check candidate = .error e ↔
      ∃ s, t.Violates candidate s e ∧
        ∀ s' e', t.Violates candidate s' e' → s' = s ∨ s.Before s' := by
  have hfirst := t.check_first hsorted
  constructor
  · constructor
    · intro hcheck way u fragment hway r hr v hv
      rw [hcheck] at hfirst
      obtain ⟨i, hi⟩ := List.mem_iff_getElem?.mp hr
      by_contra hmet
      exact hfirst ⟨way, r.field, i⟩ r.violation ⟨u, fragment, hway, r, v, hi, rfl, hv, hmet, rfl⟩
    · intro hmet
      cases hcheck : t.check candidate with
      | ok _ => rfl
      | error e =>
          rw [hcheck] at hfirst
          obtain ⟨s, ⟨u, fragment, hway, r, v, hr, hname, hv, hbroken, -⟩, -⟩ := hfirst
          exact absurd (hmet _ u fragment hway r (List.mem_of_getElem? hr) v (hname ▸ hv)) hbroken
  · intro e
    constructor
    · intro hcheck
      rw [hcheck] at hfirst
      exact hfirst
    · rintro ⟨s, hs, hleast⟩
      cases hcheck : t.check candidate with
      | ok _ =>
          rw [hcheck] at hfirst
          exact absurd hs (hfirst s e)
      | error e' =>
          rw [hcheck] at hfirst
          obtain ⟨s', hs', hleast'⟩ := hfirst
          have hsame : s' = s := by
            rcases hleast s' e' hs' with heq | hbefore
            · exact heq
            · exact (hleast' s e hs).elim Eq.symm fun hbefore' => absurd hbefore hbefore'.asymm
          subst hsame
          rw [hs.unique hs']

/-- Four rules are broken here.  The second rule of the first of two siblings is named, not the
rule of the other sibling, nor that of the section that holds them. -/
theorem check_first_violation_siblings :
    let t : Tree := .node [.number "mode"] none []
      [("limit", .node [.atLeast "x" 1, .atMost "x" 3] none [] []),
        ("limit", .node [.atLeast "x" 9, .atMost "x" 3] none [] [])]
    let candidate : Object := [("limit", .object [("x", .word 4)]), ("mode", .string "auto")]
    let e := (Rule.atMost "x" 3).violation
    (Json.object candidate).Sorted ∧ t.check candidate = .error e ∧
      ∃ s, t.Violates candidate s e ∧
        ∀ s' e', t.Violates candidate s' e' → s' = s ∨ s.Before s' := by
  intro t candidate e
  have hascending : Object.Ascending candidate := List.pairwise_pair.mpr (by decide)
  have hmembers : Json.SortedMembers candidate := by
    simp [candidate, Json.SortedMembers, Json.Sorted, Object.Ascending, Json.word]
  have hsorted : (Json.object candidate).Sorted := by
    rw [Json.Sorted]
    exact ⟨hascending, hmembers⟩
  have hcheck : t.check candidate = .error e := by decide +kernel
  exact ⟨hsorted, hcheck, ((t.check_first_violation hsorted).2 e).mp hcheck⟩

end Tree

end DeviceConfig
