/-
Ways through a tree.

A way is a list of branches, each of which says by which child it goes on.  Siblings may have the
same name, so a branch gives both the name of the child and its place among its siblings.  The
name is what a candidate goes by: a way leads through a candidate as well, from object to object,
as long as there are objects under the names.
-/
import DeviceConfig.Tree

namespace DeviceConfig

/-- One step down a tree: the name of a child, and its place among its siblings. -/
structure Branch where
  name : String
  index : Nat
  deriving DecidableEq

namespace Tree

def rules : Tree → List Rule
  | .node rules _ _ _ => rules

def children : Tree → List (String × Tree)
  | .node _ _ _ children => children

/-- What holds of a section whenever it holds of its children holds of every tree. -/
theorem induction {P : Tree → Prop}
    (node : ∀ rules failure stored children, (∀ child ∈ children, P child.2) →
      P (.node rules failure stored children)) (t : Tree) : P t :=
  @Tree.rec P (fun children => ∀ child ∈ children, P child.2) (fun child => P child.2)
    (fun rules failure stored children ih => node rules failure stored children ih) nofun
    (fun _ _ hchild hrest => List.forall_mem_cons.mpr ⟨hchild, hrest⟩) (fun _ _ ih => ih) t

/-- The child that a branch leads to. -/
def child? (t : Tree) (b : Branch) : Option Tree :=
  t.children[b.index]?.bind fun child => if child.1 = b.name then some child.2 else none

theorem child?_eq_some {t s : Tree} {b : Branch} :
    t.child? b = some s ↔ t.children[b.index]? = some (b.name, s) := by
  unfold child?
  cases h : t.children[b.index]? with
  | none => simp
  | some child =>
      obtain ⟨name, u⟩ := child
      by_cases hname : name = b.name <;> simp [hname]

/-- The section at the end of a way. -/
def sub? : List Branch → Tree → Option Tree
  | [], t => some t
  | b :: way, t => (t.child? b).bind (sub? way)

theorem sub?_cons {b : Branch} {way : List Branch} {t u : Tree} :
    sub? (b :: way) t = some u ↔
      ∃ s, t.children[b.index]? = some (b.name, s) ∧ sub? way s = some u := by
  simp only [sub?, Option.bind_eq_some_iff, child?_eq_some]

/-- The section at the end of a way, and what a candidate has for it. -/
def descend? : List Branch → Tree → Object → Option (Tree × Object)
  | [], t, candidate => some (t, candidate)
  | b :: way, t, candidate => (t.child? b).bind fun s =>
    (Object.object? candidate b.name).bind fun fragment => descend? way s fragment

/-- A way leads on from the child that its first branch leads to. -/
theorem descend?_cons {b : Branch} {way : List Branch} {t : Tree} {candidate : Object}
    {found : Tree × Object} :
    descend? (b :: way) t candidate = some found ↔
      ∃ s fragment, t.children[b.index]? = some (b.name, s) ∧
        Object.object? candidate b.name = some fragment ∧
        descend? way s fragment = some found := by
  simp only [descend?, Option.bind_eq_some_iff, child?_eq_some]
  constructor
  · rintro ⟨s, hs, fragment, hfragment, hway⟩
    exact ⟨s, fragment, hs, hfragment, hway⟩
  · rintro ⟨s, fragment, hs, hfragment, hway⟩
    exact ⟨s, hs, fragment, hfragment, hway⟩

/-- A way through a candidate is a way through the tree. -/
theorem sub?_of_descend? {way : List Branch} : ∀ {t : Tree} {candidate : Object}
    {found : Tree × Object}, descend? way t candidate = some found → sub? way t = some found.1 := by
  induction way with
  | nil =>
      rintro t candidate found ⟨⟩
      rfl
  | cons b way ih =>
      intro t candidate found h
      obtain ⟨s, fragment, hs, -, hrest⟩ := descend?_cons.mp h
      exact sub?_cons.mpr ⟨s, hs, ih hrest⟩

theorem checks_eq_map (children : List (String × Tree)) :
    checks children = children.map fun child => (child.1, child.2.check) := by
  induction children with
  | nil => rfl
  | cons child rest ih =>
      obtain ⟨name, t⟩ := child
      rw [checks, ih, List.map_cons]

end Tree

end DeviceConfig
