/-
Trees of sections.

A tree has rules and named children.  A candidate is checked against the rules all the way
down, and is applied to the children that it names.  What becomes of it is decided at the
leaves: the sections above them only hand it on.  A leaf may do anything with the part that it
is given; one that just keeps it, and may then fail, is the case in use.
-/
import DeviceConfig.Check
import DeviceConfig.Cycle

namespace DeviceConfig

/-- A section with sections inside. -/
inductive Tree where
  | node (rules : List Rule) (failure : Option ConfigError) (stored : Object)
      (children : List (String × Tree))

namespace Tree

variable {S H : Type}

mutual

/-- The verdict on a candidate for the tree. -/
def check : Tree → Check
  | .node rules _ _ children => Check.object rules (checks children)

/-- The checks of some children. -/
def checks : List (String × Tree) → List (String × Check)
  | [] => []
  | (name, t) :: rest => (name, check t) :: checks rest

end

mutual

/-- Applies a candidate to a section inside a tree.  A section without children is a leaf, and
acts on its own. -/
def applyInner (act : Object → Step Tree S H) (candidate : Object) (c : Cycle S H) :
    Tree → Progress Tree S H
  | .node rules failure stored [] => act candidate (.node rules failure stored []) c
  | .node rules failure stored (child :: rest) =>
    let p := applyChildren act candidate c (child :: rest)
    ⟨.node rules failure stored p.value, p.cycle, p.outcome⟩

/-- Applies a candidate to the children that it names with objects, in their order. -/
def applyChildren (act : Object → Step Tree S H) (candidate : Object) (c : Cycle S H) :
    List (String × Tree) → Progress (List (String × Tree)) S H
  | [] => ⟨[], c, .ok ()⟩
  | (name, t) :: rest =>
    match Object.object? candidate name with
    | some fragment =>
      let p := applyInner act fragment c t
      let q := applyChildren act candidate p.cycle rest
      ⟨(name, p.value) :: q.value, q.cycle, p.outcome.lastFailure q.outcome⟩
    | none =>
      let q := applyChildren act candidate c rest
      ⟨(name, t) :: q.value, q.cycle, q.outcome⟩

end

/-- Applies a candidate to a whole tree with some action at its leaves.  The root itself does
nothing. -/
def applyBy (act : Object → Step Tree S H) (candidate : Object) : Step Tree S H := fun t c =>
  match t with
  | .node rules failure stored children =>
    let p := applyChildren act candidate c children
    ⟨.node rules failure stored p.value, p.cycle, p.outcome⟩

/-- The action of a leaf that keeps what it is given, and may then fail. -/
def keep (candidate : Object) : Step Tree S H := fun t c =>
  match t with
  | .node rules failure _ children =>
    ⟨.node rules failure candidate children, c.raise, match failure with
      | some e => .error e
      | none => .ok ()⟩

/-- Applies a candidate to a whole tree whose leaves keep what they are given. -/
def apply (candidate : Object) : Step Tree S H := applyBy keep candidate

mutual

/-- The document value of a tree: what it keeps, with the values of its children. -/
def toJson : Tree → Json
  | .node _ _ stored children => .object (insertChildren stored children)

/-- An object with the values of some children put in. -/
def insertChildren (fields : Object) : List (String × Tree) → Object
  | [] => fields
  | (name, t) :: rest => insertChildren (Object.insert name (toJson t) fields) rest

end

end Tree

end DeviceConfig
