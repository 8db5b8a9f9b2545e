/-
Optional values by key.

A store says for each key what is held under it, if anything.  The type of a value may
depend on its key, so nothing can be held under the key of something else.
-/
namespace DeviceConfig

/-- What is held under each key. -/
@[ext] structure Slots (K : Type) (V : K → Type) where
  get? : (k : K) → Option (V k)

namespace Slots

variable {K : Type} {V : K → Type}

/-- Nothing under any key. -/
def empty : Slots K V := ⟨fun _ => none⟩

instance : Inhabited (Slots K V) := ⟨empty⟩

@[simp] theorem get?_empty (k : K) : (empty : Slots K V).get? k = none := rfl

variable [DecidableEq K]

/-- The store with one key's value replaced, or removed. -/
def set (s : Slots K V) (k : K) (v : Option (V k)) : Slots K V :=
  ⟨fun j => if h : j = k then h ▸ v else s.get? j⟩

/-- The store with a value put under a key. -/
def insert (s : Slots K V) (k : K) (v : V k) : Slots K V := s.set k (some v)

/-- The store with nothing under a key. -/
def erase (s : Slots K V) (k : K) : Slots K V := s.set k none

@[simp] theorem get?_set_self (s : Slots K V) (k : K) (v : Option (V k)) :
    (s.set k v).get? k = v := by simp [set]

@[simp] theorem set_get? (s : Slots K V) (k : K) : s.set k (s.get? k) = s := by
  ext j : 2
  by_cases h : j = k
  · subst h
    simp [set]
  · simp [set, h]

theorem get?_set_of_ne (s : Slots K V) {j k : K} (v : Option (V k)) (h : j ≠ k) :
    (s.set k v).get? j = s.get? j := by simp [set, h]

@[simp] theorem get?_insert_self (s : Slots K V) (k : K) (v : V k) :
    (s.insert k v).get? k = some v := get?_set_self s k _

theorem get?_insert_of_ne (s : Slots K V) {j k : K} (v : V k) (h : j ≠ k) :
    (s.insert k v).get? j = s.get? j := get?_set_of_ne s _ h

@[simp] theorem get?_erase_self (s : Slots K V) (k : K) : (s.erase k).get? k = none :=
  get?_set_self s k _

theorem get?_erase_of_ne (s : Slots K V) {j k : K} (h : j ≠ k) :
    (s.erase k).get? j = s.get? j := get?_set_of_ne s _ h

/-- Setting several keys, each to what a function gives for it, sets exactly these. -/
theorem get?_foldl_set (f : (k : K) → Option (V k)) {k : K} :
    ∀ (keys : List K) (_ : k ∈ keys) (s : Slots K V),
      (keys.foldl (fun s k => s.set k (f k)) s).get? k = f k := by
  have hskip : ∀ (keys : List K) (s : Slots K V), k ∉ keys →
      (keys.foldl (fun s k => s.set k (f k)) s).get? k = s.get? k := by
    intro keys
    induction keys with
    | nil => intro s _; rfl
    | cons j rest ih =>
        intro s hk
        rw [List.mem_cons, not_or] at hk
        exact (ih _ hk.2).trans (get?_set_of_ne s (f j) hk.1)
  intro keys
  induction keys with
  | nil => intro hk; cases hk
  | cons j rest ih =>
      intro hk s
      by_cases hrest : k ∈ rest
      · exact ih hrest _
      · obtain rfl : k = j := by simpa [hrest] using hk
        exact (hskip rest _ hrest).trans (get?_set_self s k (f k))

end Slots

end DeviceConfig
