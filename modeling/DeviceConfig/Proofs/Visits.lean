/-
What the application of a tree comes to.

A candidate is handed down the tree, and what is left of it arrives at some of the leaves.  These
are the `visits`: they can be listed beforehand, since no leaf has a say in who comes after it.  To
`perform` them is to let one leaf after the other act, each in the cycle that the one before has
left, whatever it was that the one before said.

The tree does just that.  Its sections keep their outcomes together as they go, level by level, and
still the outcome of the whole is that of the last leaf that fails.  Every leaf is found at the end
of its way, as its own action has left it, and in the value of the tree it is shown there.

A leaf may do anything, so the sensor and the application see the leaves act in this order and no
other, each of them once.
-/
import DeviceConfig.Proofs.Descent
import DeviceConfig.Proofs.Paths
import DeviceConfig.Proofs.Steps

namespace DeviceConfig

namespace Tree

variable {S H : Type}

/-! ### Visits -/

/-- A leaf that a candidate reaches: the way to it, the leaf itself and what the candidate has for
it. -/
structure Visit where
  way : List Branch
  leaf : Tree
  fragment : Object

/-- The same visit seen from further up. -/
def Visit.within (b : Branch) (v : Visit) : Visit := { v with way := b :: v.way }

mutual

/-- The leaves that a candidate reaches in a section inside a tree, which may be a leaf itself. -/
def visitsInner (candidate : Object) : Tree → List Visit
  | .node rules failure stored [] => [⟨[], .node rules failure stored [], candidate⟩]
  | .node _ _ _ (child :: rest) => visitsChildren candidate 0 (child :: rest)

/-- The leaves that a candidate reaches in some siblings, of which the first has a given place. -/
def visitsChildren (candidate : Object) (place : Nat) : List (String × Tree) → List Visit
  | [] => []
  | (name, t) :: rest =>
    (match Object.object? candidate name with
      | some fragment => (visitsInner fragment t).map (Visit.within ⟨name, place⟩)
      | none => []) ++
    visitsChildren candidate (place + 1) rest

end

/-- The leaves of a tree that a candidate reaches.  The root is not one of them. -/
def visits (t : Tree) (candidate : Object) : List Visit := visitsChildren candidate 0 t.children

/-- Who comes first: the one at the earlier place, where their ways part. -/
def Visit.Before (v w : Visit) : Prop := v.way.map Branch.index < w.way.map Branch.index

/-- What is visited in one of some siblings, wherever it stands. -/
theorem mem_visitsChildren {candidate : Object} {children : List (String × Tree)} {v : Visit} :
    ∀ {place : Nat}, v ∈ visitsChildren candidate place children ↔
      ∃ i name u fragment w, children[i]? = some (name, u) ∧
        Object.object? candidate name = some fragment ∧ w ∈ visitsInner fragment u ∧
        v = w.within ⟨name, place + i⟩ := by
  induction children with
  | nil => intro place; simp [visitsChildren]
  | cons child rest ih =>
      obtain ⟨name, t⟩ := child
      intro place
      rw [visitsChildren, List.mem_append, ih]
      constructor
      · rintro (hv | ⟨i, name', u, fragment, w, hu, hfragment, hw, rfl⟩)
        · cases hfragment : Object.object? candidate name with
          | none => simp [hfragment] at hv
          | some fragment =>
              rw [hfragment] at hv
              obtain ⟨w, hw, rfl⟩ := List.mem_map.mp hv
              exact ⟨0, name, t, fragment, w, rfl, hfragment, hw, rfl⟩
        · exact ⟨i + 1, name', u, fragment, w, hu, hfragment, hw, by rw [Nat.add_right_comm]; rfl⟩
      · rintro ⟨i, name', u, fragment, w, hu, hfragment, hw, rfl⟩
        cases i with
        | zero =>
            obtain ⟨rfl, rfl⟩ := Prod.mk.inj (Option.some.inj hu)
            rw [hfragment]
            exact .inl (List.mem_map.mpr ⟨w, hw, rfl⟩)
        | succ i =>
            exact .inr ⟨i, name', u, fragment, w, hu, hfragment, hw,
              by rw [Nat.add_right_comm]; rfl⟩

/-- Inside a tree those leaves are visited to which a way leads through the candidate. -/
theorem mem_visitsInner (t : Tree) : ∀ {candidate : Object} {v : Visit},
    v ∈ visitsInner candidate t ↔
      descend? v.way t candidate = some (v.leaf, v.fragment) ∧ v.leaf.children = [] := by
  induction t using Tree.induction with
  | node rules failure stored children ih =>
      intro candidate v
      obtain ⟨way, leaf, found⟩ := v
      cases children with
      | nil =>
          rw [visitsInner, List.mem_singleton]
          constructor
          · rintro ⟨⟩
            exact ⟨rfl, rfl⟩
          · rintro ⟨hway, -⟩
            cases way with
            | nil =>
                obtain ⟨rfl, rfl⟩ := Prod.mk.inj (Option.some.inj hway)
                rfl
            | cons b way =>
                obtain ⟨_, _, hchild, -⟩ := descend?_cons.mp hway
                simp [Tree.children] at hchild
      | cons child rest =>
          rw [visitsInner, mem_visitsChildren]
          constructor
          · rintro ⟨i, name, u, fragment, w, hu, hfragment, hw, heq⟩
            obtain ⟨hway, hleaf⟩ := (ih _ (List.mem_of_getElem? hu)).mp hw
            cases heq
            rw [Nat.zero_add]
            exact ⟨descend?_cons.mpr ⟨u, fragment, hu, hfragment, hway⟩, hleaf⟩
          · rintro ⟨hway, hleaf⟩
            cases way with
            | nil =>
                obtain ⟨rfl, -⟩ := Prod.mk.inj (Option.some.inj hway)
                cases hleaf
            | cons b way =>
                obtain ⟨u, fragment, hu, hfragment, hrest⟩ := descend?_cons.mp hway
                refine ⟨b.index, b.name, u, fragment, ⟨way, leaf, found⟩, hu, hfragment, ?_, ?_⟩
                · exact (ih _ (List.mem_of_getElem? hu)).mpr ⟨hrest, hleaf⟩
                · rw [Nat.zero_add]
                  rfl

/-- Siblings are visited one after the other, and each of them as it is on its own. -/
theorem visitsChildren_pairwise {candidate : Object} {children : List (String × Tree)}
    (h : ∀ child ∈ children, ∀ fragment, (visitsInner fragment child.2).Pairwise Visit.Before) :
    ∀ {place : Nat}, (visitsChildren candidate place children).Pairwise Visit.Before := by
  induction children with
  | nil => exact List.Pairwise.nil
  | cons child rest ih =>
      obtain ⟨name, t⟩ := child
      obtain ⟨hfirst, hrest⟩ := List.forall_mem_cons.mp h
      intro place
      refine List.pairwise_append.mpr ⟨?_, ih hrest, ?_⟩
      · cases Object.object? candidate name with
        | none => exact List.Pairwise.nil
        | some fragment =>
            refine List.pairwise_map.mpr ((hfirst fragment).imp fun h => ?_)
            exact List.cons_lt_cons_self.mpr h
      · intro v hv w hw
        obtain ⟨i, _, _, _, w, -, -, -, rfl⟩ := mem_visitsChildren.mp hw
        cases hfragment : Object.object? candidate name with
        | none => simp [hfragment] at hv
        | some fragment =>
            rw [hfragment] at hv
            obtain ⟨v, -, rfl⟩ := List.mem_map.mp hv
            exact List.Lex.rel (by simp only; omega)

theorem visitsInner_pairwise (t : Tree) :
    ∀ candidate, (visitsInner candidate t).Pairwise Visit.Before := by
  induction t using Tree.induction with
  | node rules failure stored children ih =>
      intro candidate
      cases children with
      | nil => exact List.pairwise_singleton _ _
      | cons child rest => exact visitsChildren_pairwise ih

/-! ### Deeds -/

/-- A visit and what has come of it. -/
structure Deed (S H : Type) where
  visit : Visit
  progress : Progress Tree S H

/-- The same deed seen from further up. -/
def Deed.within (b : Branch) (d : Deed S H) : Deed S H := { d with visit := d.visit.within b }

section Deeds

variable {act : Object → Step Tree S H}

/-- The leaves have acted one after the other, each of them in the cycle that the one before has
left. -/
inductive Performed (act : Object → Step Tree S H) :
    Cycle S H → List (Deed S H) → Cycle S H → Prop where
  | nil {c} : Performed act c [] c
  | cons {v : Visit} {c c' deeds} (rest : Performed act (act v.fragment v.leaf c).cycle deeds c') :
      Performed act c (⟨v, act v.fragment v.leaf c⟩ :: deeds) c'

namespace Performed

theorem append {c c' c'' : Cycle S H} {deeds more : List (Deed S H)}
    (h : Performed act c deeds c') (h' : Performed act c' more c'') :
    Performed act c (deeds ++ more) c'' := by
  induction h with
  | nil => exact h'
  | cons rest ih => exact .cons (ih h')

theorem within (b : Branch) {c c' : Cycle S H} {deeds : List (Deed S H)}
    (h : Performed act c deeds c') : Performed act c (deeds.map (Deed.within b)) c' := by
  induction h with
  | nil => exact .nil
  | @cons v c c' deeds rest ih => exact .cons (v := v.within b) ih

end Performed

/-- What an application comes to: some visits, one after the other, of which the last failure is
the outcome. -/
structure Account (act : Object → Step Tree S H) (visits : List Visit) (c : Cycle S H)
    (deeds : List (Deed S H)) (c' : Cycle S H) (outcome : Verdict) : Prop where
  visits : deeds.map Deed.visit = visits
  performed : Performed act c deeds c'
  concludes : Verdict.Concludes (deeds.map fun d => d.progress.outcome) outcome

namespace Account

theorem nil {c : Cycle S H} : Account act [] c [] c (.ok ()) := ⟨rfl, .nil, .nil⟩

theorem append {visits visits' : List Visit} {c c' c'' : Cycle S H} {deeds deeds' : List (Deed S H)}
    {outcome outcome' : Verdict} (h : Account act visits c deeds c' outcome)
    (h' : Account act visits' c' deeds' c'' outcome') :
    Account act (visits ++ visits') c (deeds ++ deeds') c'' (outcome.lastFailure outcome') where
  visits := by rw [List.map_append, h.visits, h'.visits]
  performed := h.performed.append h'.performed
  concludes := by
    rw [List.map_append]
    exact h.concludes.append h'.concludes

theorem within (b : Branch) {visits : List Visit} {c c' : Cycle S H} {deeds : List (Deed S H)}
    {outcome : Verdict} (h : Account act visits c deeds c' outcome) :
    Account act (visits.map (Visit.within b)) c (deeds.map (Deed.within b)) c' outcome where
  visits := by
    rw [← h.visits, List.map_map, List.map_map]
    rfl
  performed := h.performed.within b
  concludes := by
    rw [List.map_map]
    exact h.concludes

end Account

/-- What the siblings come to, if each of them comes to what its leaves do. -/
theorem applyChildren_account {children : List (String × Tree)}
    (h : ∀ child ∈ children, ∀ (candidate : Object) (c : Cycle S H),
      ∃ deeds, Account act (visitsInner candidate child.2) c deeds
          (applyInner act candidate c child.2).cycle
          (applyInner act candidate c child.2).outcome ∧
        ∀ d ∈ deeds, sub? d.visit.way (applyInner act candidate c child.2).value =
          some d.progress.value) (candidate : Object) :
    ∀ (place : Nat) (c : Cycle S H),
      ∃ deeds, Account act (visitsChildren candidate place children) c deeds
          (applyChildren act candidate c children).cycle
          (applyChildren act candidate c children).outcome ∧
        ∀ d ∈ deeds, ∃ i name u way, d.visit.way = ⟨name, place + i⟩ :: way ∧
          (applyChildren act candidate c children).value[i]? = some (name, u) ∧
          sub? way u = some d.progress.value := by
  induction children with
  | nil => exact fun _ _ => ⟨[], .nil, List.forall_mem_nil _⟩
  | cons child rest ih =>
      obtain ⟨name, t⟩ := child
      obtain ⟨hfirst, hrest⟩ := List.forall_mem_cons.mp h
      intro place c
      -- The deeds of the later siblings are found one place further on.
      have hshift : ∀ {q : Progress (List (String × Tree)) S H} {head : String × Tree}
          {d : Deed S H},
          (∃ i name u way, d.visit.way = ⟨name, place + 1 + i⟩ :: way ∧
            q.value[i]? = some (name, u) ∧ sub? way u = some d.progress.value) →
          ∃ i name u way, d.visit.way = ⟨name, place + i⟩ :: way ∧
            (head :: q.value)[i]? = some (name, u) ∧ sub? way u = some d.progress.value := by
        rintro q head d ⟨i, name, u, way, hway, hu, hfound⟩
        exact ⟨i + 1, name, u, way, by rw [hway, Nat.add_right_comm]; rfl, hu, hfound⟩
      cases hfragment : Object.object? candidate name with
      | none =>
          obtain ⟨deeds, haccount, hvalue⟩ := ih hrest (place + 1) c
          simp only [visitsChildren, applyChildren, hfragment, List.nil_append]
          exact ⟨deeds, haccount, fun d hd => hshift (hvalue d hd)⟩
      | some fragment =>
          obtain ⟨deeds, haccount, hvalue⟩ := hfirst fragment c
          obtain ⟨deeds', haccount', hvalue'⟩ :=
            ih hrest (place + 1) (applyInner act fragment c t).cycle
          simp only [visitsChildren, applyChildren, hfragment]
          refine ⟨_, (haccount.within ⟨name, place⟩).append haccount', fun d hd => ?_⟩
          rcases List.mem_append.mp hd with hd | hd
          · obtain ⟨d', hd', rfl⟩ := List.mem_map.mp hd
            exact ⟨0, name, _, d'.visit.way, rfl, rfl, hvalue d' hd'⟩
          · exact hshift (hvalue' d hd)

/-- What a section inside a tree comes to. -/
theorem applyInner_account (act : Object → Step Tree S H) (t : Tree) :
    ∀ (candidate : Object) (c : Cycle S H),
      ∃ deeds, Account act (visitsInner candidate t) c deeds
          (applyInner act candidate c t).cycle (applyInner act candidate c t).outcome ∧
        ∀ d ∈ deeds, sub? d.visit.way (applyInner act candidate c t).value =
          some d.progress.value := by
  induction t using Tree.induction with
  | node rules failure stored children ih =>
      intro candidate c
      cases children with
      | nil =>
          refine ⟨[⟨⟨[], .node rules failure stored [], candidate⟩, _⟩],
            ⟨rfl, .cons .nil, .single _⟩, fun d hd => ?_⟩
          rw [List.mem_singleton.mp hd]
          rfl
      | cons child rest =>
          obtain ⟨deeds, haccount, hvalue⟩ := applyChildren_account ih candidate 0 c
          refine ⟨deeds, haccount, fun d hd => ?_⟩
          obtain ⟨i, name, u, way, hway, hu, hfound⟩ := hvalue d hd
          rw [hway, Nat.zero_add]
          exact sub?_cons.mpr ⟨u, hu, hfound⟩

end Deeds

/-! ### What is left behind -/

section Values

variable (act : Object → Step Tree S H)

theorem applyChildren_names (candidate : Object) {children : List (String × Tree)} :
    ∀ c : Cycle S H, (applyChildren act candidate c children).value.map Prod.fst =
      children.map Prod.fst := by
  induction children with
  | nil => exact fun _ => rfl
  | cons child rest ih =>
      obtain ⟨name, t⟩ := child
      intro c
      rw [applyChildren]
      cases Object.object? candidate name <;> simp [ih]

/-- A child is left alone, or has the candidate for it applied. -/
theorem applyChildren_child (candidate : Object) {name : String} {u : Tree}
    {children : List (String × Tree)} : ∀ {i : Nat} (c : Cycle S H),
    children[i]? = some (name, u) →
    ∃ u', (applyChildren act candidate c children).value[i]? = some (name, u') ∧
      match Object.object? candidate name with
      | some fragment => ∃ c', u' = (applyInner act fragment c' u).value
      | none => u' = u := by
  induction children with
  | nil => exact fun c h => by simp at h
  | cons child rest ih =>
      obtain ⟨name', t⟩ := child
      intro i c hi
      cases i with
      | zero =>
          obtain ⟨rfl, rfl⟩ := Prod.mk.inj (Option.some.inj hi)
          rw [applyChildren]
          cases Object.object? candidate name' with
          | none => exact ⟨t, rfl, rfl⟩
          | some fragment => exact ⟨_, rfl, c, rfl⟩
      | succ i =>
          rw [applyChildren]
          cases Object.object? candidate name' with
          | none => exact ih c hi
          | some fragment => exact ih _ hi

/-- The same of a section inside a tree, which has children and so is no leaf. -/
theorem applyInner_child (candidate : Object) {t u : Tree} {b : Branch} (c : Cycle S H)
    (hu : t.children[b.index]? = some (b.name, u)) :
    ∃ u', (applyInner act candidate c t).value.children[b.index]? = some (b.name, u') ∧
      match Object.object? candidate b.name with
      | some fragment => ∃ c', u' = (applyInner act fragment c' u).value
      | none => u' = u := by
  obtain ⟨rules, failure, stored, children⟩ := t
  cases children with
  | nil => simp [children] at hu
  | cons child rest => exact applyChildren_child act candidate c hu

/-- A section to which no way leads through the candidate stays as it is. -/
theorem applyInner_unvisited {way : List Branch} : ∀ {t u : Tree} {candidate : Object}
    (c : Cycle S H), sub? way t = some u → descend? way t candidate = none →
    sub? way (applyInner act candidate c t).value = some u := by
  induction way with
  | nil =>
      intro t u candidate c _ hnone
      cases hnone
  | cons b way ih =>
      intro t u candidate c hu hnone
      obtain ⟨s, hs, hrest⟩ := sub?_cons.mp hu
      obtain ⟨s', hs', hchild⟩ := applyInner_child act candidate c hs
      refine sub?_cons.mpr ⟨s', hs', ?_⟩
      cases hfragment : Object.object? candidate b.name with
      | none =>
          rw [hfragment] at hchild
          rw [hchild]
          exact hrest
      | some fragment =>
          rw [hfragment] at hchild
          obtain ⟨c', rfl⟩ := hchild
          refine ih c' hrest ?_
          rw [descend?, child?_eq_some.mpr hs, hfragment] at hnone
          exact hnone

end Values

/-! ### What is shown -/

mutual

/-- No two siblings anywhere in the tree have the same name. -/
def Distinct : Tree → Prop
  | .node _ _ _ children => (children.map Prod.fst).Nodup ∧ DistinctAll children

/-- The same of every tree in a list. -/
def DistinctAll : List (String × Tree) → Prop
  | [] => True
  | (_, t) :: rest => t.Distinct ∧ DistinctAll rest

end

theorem distinctAll_iff {children : List (String × Tree)} :
    DistinctAll children ↔ ∀ child ∈ children, child.2.Distinct := by
  induction children with
  | nil => simp [DistinctAll]
  | cons child rest ih => simp [DistinctAll, ih]

theorem Distinct.child {t u : Tree} {b : Branch} (h : t.Distinct)
    (hu : t.children[b.index]? = some (b.name, u)) : u.Distinct := by
  obtain ⟨rules, failure, stored, children⟩ := t
  exact distinctAll_iff.mp h.2 _ (List.mem_of_getElem? hu)

theorem Distinct.nodup {t : Tree} (h : t.Distinct) : (t.children.map Prod.fst).Nodup := by
  obtain ⟨rules, failure, stored, children⟩ := t
  exact h.1

theorem field?_insertChildren {key : String} {children : List (String × Tree)}
    (h : key ∉ children.map Prod.fst) : ∀ fields : Object,
    Object.field? (insertChildren fields children) key = Object.field? fields key := by
  induction children with
  | nil => exact fun _ => rfl
  | cons child rest ih =>
      obtain ⟨name, t⟩ := child
      rw [List.map_cons, List.mem_cons, not_or] at h
      intro fields
      rw [insertChildren, ih h.2, Object.field?_insert, if_neg h.1]

/-- A child whose name no other child has is shown under its name. -/
theorem field?_insertChildren_of_mem {name : String} {u : Tree} {children : List (String × Tree)}
    (hnames : (children.map Prod.fst).Nodup) (hu : (name, u) ∈ children) : ∀ fields : Object,
    Object.field? (insertChildren fields children) name = some u.toJson := by
  induction children with
  | nil => cases hu
  | cons child rest ih =>
      obtain ⟨name', t⟩ := child
      rw [List.map_cons, List.nodup_cons] at hnames
      intro fields
      rw [insertChildren]
      rcases List.mem_cons.mp hu with heq | hrest
      · obtain ⟨rfl, rfl⟩ := Prod.mk.inj heq
        rw [field?_insertChildren hnames.1, Object.field?_insert, if_pos rfl]
      · exact ih hnames.2 hrest _

/-- Where names are distinct, the value of a tree shows what is below each of its children. -/
theorem under?_cons {t u : Tree} {b : Branch} (hnames : (t.children.map Prod.fst).Nodup)
    (hu : t.children[b.index]? = some (b.name, u)) (path : List String) :
    t.toJson.under? (b.name :: path) = u.toJson.under? path := by
  obtain ⟨rules, failure, stored, children⟩ := t
  have hfield : Object.field? (insertChildren stored children) b.name = some u.toJson :=
    field?_insertChildren_of_mem hnames (List.mem_of_getElem? hu) stored
  rw [toJson, Json.under?_object, hfield]
  rfl

/-- The value of a tree shows every section under the names on the way to it. -/
theorem Distinct.under? {way : List Branch} : ∀ {t u : Tree}, t.Distinct → sub? way t = some u →
    t.toJson.under? (way.map Branch.name) = some u.toJson := by
  induction way with
  | nil =>
      rintro t u - ⟨⟩
      rfl
  | cons b way ih =>
      intro t u hdistinct hu
      obtain ⟨s, hs, hrest⟩ := sub?_cons.mp hu
      rw [List.map_cons, under?_cons hdistinct.nodup hs]
      exact ih (hdistinct.child hs) hrest

/-- So it does when a candidate has been applied: a leaf may have put anything in its own place,
but there are the same names above it. -/
theorem Distinct.under?_applyInner (act : Object → Step Tree S H) {way : List Branch} :
    ∀ {t u u' : Tree} {candidate : Object} (c : Cycle S H), t.Distinct → sub? way t = some u →
    sub? way (applyInner act candidate c t).value = some u' →
    (applyInner act candidate c t).value.toJson.under? (way.map Branch.name) =
      some u'.toJson := by
  induction way with
  | nil =>
      rintro t u u' candidate c - - ⟨⟩
      rfl
  | cons b way ih =>
      intro t u u' candidate c hdistinct hu hu'
      obtain ⟨s, hs, hrest⟩ := sub?_cons.mp hu
      obtain ⟨s', hs', hrest'⟩ := sub?_cons.mp hu'
      obtain ⟨s'', hs'', hchild⟩ := applyInner_child act candidate c hs
      obtain ⟨-, rfl⟩ := Prod.mk.inj (Option.some.inj (hs'.symm.trans hs''))
      have hnames : ((applyInner act candidate c t).value.children.map Prod.fst).Nodup := by
        obtain ⟨rules, failure, stored, children⟩ := t
        cases children with
        | nil => simp [children] at hs
        | cons child rest =>
            show ((applyChildren act candidate c (child :: rest)).value.map Prod.fst).Nodup
            rw [applyChildren_names]
            exact hdistinct.1
      rw [List.map_cons, under?_cons hnames hs']
      cases hfragment : Object.object? candidate b.name with
      | none =>
          rw [hfragment] at hchild
          subst hchild
          exact (hdistinct.child hs).under? hrest'
      | some fragment =>
          rw [hfragment] at hchild
          obtain ⟨c', rfl⟩ := hchild
          exact ih c' (hdistinct.child hs) hrest hrest'

/-! ### The application of a tree -/

/-- The visits to a tree are the ways that lead through the candidate to a leaf below the root. -/
theorem mem_visits {t : Tree} {candidate : Object} {v : Visit} :
    v ∈ t.visits candidate ↔ v.way ≠ [] ∧
      descend? v.way t candidate = some (v.leaf, v.fragment) ∧ v.leaf.children = [] := by
  obtain ⟨way, leaf, found⟩ := v
  obtain ⟨rules, failure, stored, children⟩ := t
  cases children with
  | nil =>
      refine ⟨fun h => absurd h List.not_mem_nil, fun ⟨hne, hway, _⟩ => ?_⟩
      cases way with
      | nil => exact absurd rfl hne
      | cons b way =>
          obtain ⟨_, _, hchild, -⟩ := descend?_cons.mp hway
          simp [children] at hchild
  | cons child rest =>
      refine (mem_visitsInner (.node rules failure stored (child :: rest))).trans ?_
      refine ⟨fun h => ⟨?_, h⟩, fun h => h.2⟩
      rintro rfl
      obtain ⟨⟨⟩, hleaf⟩ := h
      cases hleaf

/-- A tree with children is applied as it would be inside another. -/
theorem applyBy_eq (act : Object → Step Tree S H) (candidate : Object) {t : Tree}
    (h : t.children ≠ []) (c : Cycle S H) :
    applyBy act candidate t c = applyInner act candidate c t ∧
      t.visits candidate = visitsInner candidate t := by
  obtain ⟨rules, failure, stored, children⟩ := t
  cases children with
  | nil => exact absurd rfl h
  | cons child rest => exact ⟨rfl, rfl⟩

theorem children_ne_nil {t u : Tree} {way : List Branch} (hne : way ≠ [])
    (hu : sub? way t = some u) : t.children ≠ [] := by
  cases way with
  | nil => exact absurd rfl hne
  | cons b way =>
      obtain ⟨s, hs, -⟩ := sub?_cons.mp hu
      intro hnil
      simp [hnil] at hs

/-- **Every leaf that a candidate reaches acts once, and the last failure counts.**  The leaves
that act are those below the root to which a way leads through the candidate.  They act in their
order in the tree, each on what the candidate has for it and in the cycle that the one before has
left, and nothing else happens.  The outcome is good if none of them fails, and otherwise is that
of the last one that does.  Afterwards every leaf is as its own action has left it, or as it was
if it has not acted; where names are distinct, so it is shown under its names. -/
theorem applyBy_visits (act : Object → Step Tree S H) (candidate : Object) (t : Tree)
    (c : Cycle S H) :
    let p := applyBy act candidate t c
    ∃ deeds : List (Deed S H),
      (∀ v : Visit, (∃ d ∈ deeds, d.visit = v) ↔ v.way ≠ [] ∧
        descend? v.way t candidate = some (v.leaf, v.fragment) ∧ v.leaf.children = []) ∧
      (deeds.map Deed.visit).Pairwise Visit.Before ∧
      Performed act c deeds p.cycle ∧
      Verdict.Concludes (deeds.map fun d => d.progress.outcome) p.outcome ∧
      (∀ d ∈ deeds, sub? d.visit.way p.value = some d.progress.value ∧
        (t.Distinct → p.value.toJson.under? (d.visit.way.map Branch.name) =
          some d.progress.value.toJson)) ∧
      ∀ way u, way ≠ [] → sub? way t = some u → u.children = [] →
        (∀ d ∈ deeds, d.visit.way ≠ way) → sub? way p.value = some u ∧
          (t.Distinct → p.value.toJson.under? (way.map Branch.name) = some u.toJson) := by
  intro p
  by_cases hroot : t.children = []
  · -- A root without children is no leaf, and there is nothing below it.
    have hp : p = ⟨t, c, .ok ()⟩ := by
      obtain ⟨rules, failure, stored, children⟩ := t
      obtain rfl : children = [] := hroot
      rfl
    have hvisits : t.visits candidate = [] := by rw [visits, hroot, visitsChildren]
    rw [hp]
    refine ⟨[], fun v => ?_, .nil, .nil, .nil, List.forall_mem_nil _, fun way u hne hu => ?_⟩
    · rw [← mem_visits, hvisits]
      simp
    · exact absurd hroot (children_ne_nil hne hu)
  have hp : p = applyInner act candidate c t := (applyBy_eq act candidate hroot c).1
  have hvisits : t.visits candidate = visitsInner candidate t :=
    (applyBy_eq act candidate hroot c).2
  obtain ⟨deeds, haccount, hvalue⟩ := applyInner_account act t candidate c
  have hmem : ∀ v : Visit, (∃ d ∈ deeds, d.visit = v) ↔ v ∈ t.visits candidate := fun v => by
    rw [hvisits, ← haccount.visits, List.mem_map]
  rw [← hp] at haccount hvalue
  have hshown : ∀ {way : List Branch} {u u' : Tree}, t.Distinct → sub? way t = some u →
      sub? way p.value = some u' →
      p.value.toJson.under? (way.map Branch.name) = some u'.toJson := by
    intro way u u' hdistinct hu hu'
    rw [hp] at hu' ⊢
    exact hdistinct.under?_applyInner act c hu hu'
  refine ⟨deeds, fun v => (hmem v).trans mem_visits, ?_, haccount.performed, haccount.concludes,
    fun d hd => ⟨hvalue d hd, fun hdistinct => ?_⟩, fun way u hne hu hleaf hothers => ?_⟩
  · rw [haccount.visits]
    exact visitsInner_pairwise t candidate
  · obtain ⟨-, hway, -⟩ := mem_visits.mp ((hmem d.visit).mp ⟨d, hd, rfl⟩)
    exact hshown hdistinct (sub?_of_descend? hway) (hvalue d hd)
  · have hnone : descend? way t candidate = none := by
      cases hway : descend? way t candidate with
      | none => rfl
      | some found =>
          have hfound : found.1 = u := Option.some.inj ((sub?_of_descend? hway).symm.trans hu)
          obtain ⟨d, hd, hvisit⟩ := (hmem ⟨way, u, found.2⟩).mpr
            (mem_visits.mpr ⟨hne, by rw [hway, ← hfound], hleaf⟩)
          exact absurd (congrArg Visit.way hvisit) (hothers d hd)
    have hkept : sub? way p.value = some u := by
      rw [hp]
      exact applyInner_unvisited act c hu hnone
    exact ⟨hkept, fun hdistinct => hshown hdistinct hu hkept⟩

/-- The leaf in the middle fails, and the one after it does not make up for that. -/
example (c : Cycle Unit Unit) (e : ConfigError) :
    let t : Tree := .node [] none []
      [("a", .node [] none [] [("x", .node [] none [] []), ("y", .node [] (some e) [] [])]),
        ("b", .node [] none [] [])]
    let candidate : Object := [("a", .object [("y", .object [])]), ("b", .object [("z", .null)])]
    (applyBy keep candidate t c).outcome = .error e := rfl

end Tree

end DeviceConfig
