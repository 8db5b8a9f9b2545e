/-
Values that can be read.

A value is only read if nothing in it is nested too deep, and when it has been read the keys of
its objects ascend.  `Json.Legible` says both of a value.  What has been read is always so, and it
stays so when a member is put in that is so itself.
-/
import Mathlib.Data.String.Basic
import DeviceConfig.Json.Written
import DeviceConfig.Proofs.Acceptance

namespace DeviceConfig

/-! ### Members in order -/

namespace Object

theorem ascending_iff_keys {o : Object} :
    Ascending o ↔ (o.map Prod.fst).Pairwise (· < ·) := List.pairwise_map.symm

/-- A member that is put in finds its place. -/
theorem ascending_insert {key : String} {v : Json} {o : Object} (h : Ascending o) :
    Ascending (insert key v o) := by
  induction o with
  | nil => exact List.pairwise_singleton _ _
  | cons m rest ih =>
      obtain ⟨k, w⟩ := m
      obtain ⟨hfirst, hrest⟩ := List.pairwise_cons.mp h
      unfold insert
      by_cases hlt : key < k
      · rw [if_pos hlt]
        refine List.pairwise_cons.mpr ⟨fun n hn => ?_, h⟩
        rcases List.mem_cons.mp hn with rfl | hn
        · exact hlt
        · exact lt_trans hlt (hfirst n hn)
      rw [if_neg hlt]
      by_cases heq : key = k
      · rw [if_pos heq]
        subst heq
        exact List.pairwise_cons.mpr ⟨hfirst, hrest⟩
      · rw [if_neg heq]
        refine List.pairwise_cons.mpr ⟨fun n hn => ?_, ih hrest⟩
        rcases mem_of_mem_insert hn with rfl | hn
        · exact lt_of_le_of_ne (not_lt.mp hlt) (Ne.symm heq)
        · exact hfirst n hn

/-- However members are listed, the object of them has ascending keys. -/
theorem ascending_ofList (members : List (String × Json)) : Ascending (ofList members) := by
  have hfold : ∀ (l : List (String × Json)) (o : Object), Ascending o →
      Ascending (l.foldl (fun o m => insert m.1 m.2 o) o) := by
    intro l
    induction l with
    | nil => exact fun _ ho => ho
    | cons m l ih => exact fun o ho => ih _ (ascending_insert ho)
  exact hfold members [] List.Pairwise.nil

theorem insert_of_greatest {key : String} {v : Json} {o : Object} (h : ∀ m ∈ o, m.1 < key) :
    insert key v o = o ++ [(key, v)] := by
  induction o with
  | nil => rfl
  | cons m rest ih =>
      obtain ⟨k, w⟩ := m
      have hk : k < key := h (k, w) List.mem_cons_self
      unfold insert
      rw [if_neg (lt_asymm hk), if_neg (ne_of_gt hk),
        ih fun n hn => h n (List.mem_cons_of_mem _ hn)]
      rfl

/-- Members whose keys ascend are in place already. -/
theorem ofList_of_ascending {members : List (String × Json)} (h : Ascending members) :
    ofList members = members := by
  have hfold : ∀ (l : List (String × Json)) (o : Object), Ascending (o ++ l) →
      l.foldl (fun o m => insert m.1 m.2 o) o = o ++ l := by
    intro l
    induction l with
    | nil => exact fun o _ => (List.append_nil o).symm
    | cons m l ih =>
        intro o ho
        have hlast : ∀ n ∈ o, n.1 < m.1 := fun n hn =>
          (List.pairwise_append.mp ho).2.2 n hn m List.mem_cons_self
        have hsplit : o ++ m :: l = (o ++ [m]) ++ l := by simp
        rw [List.foldl_cons, insert_of_greatest hlast, hsplit]
        exact ih _ (hsplit ▸ ho)
  exact hfold members [] h

end Object

namespace Json

mutual

/-- How deep arrays and objects are nested in a value. -/
def depth : Json → Nat
  | .array items => depthItems items + 1
  | .object members => depthMembers members + 1
  | _ => 0

/-- How deep arrays and objects are nested in some items. -/
def depthItems : List Json → Nat
  | [] => 0
  | x :: xs => max x.depth (depthItems xs)

/-- How deep arrays and objects are nested in some members. -/
def depthMembers : List (String × Json) → Nat
  | [] => 0
  | (_, x) :: xs => max x.depth (depthMembers xs)

end

/-- A value that can be read where containers go at most `limit` deep. -/
structure Legible (limit : Nat) (v : Json) : Prop where
  sorted : v.Sorted
  depth : v.depth ≤ limit

@[simp] theorem legible_null (limit : Nat) : null.Legible limit := ⟨trivial, Nat.zero_le _⟩

@[simp] theorem legible_bool (limit : Nat) (b : Bool) : (bool b).Legible limit :=
  ⟨trivial, Nat.zero_le _⟩

@[simp] theorem legible_number (limit : Nat) (n : Number) : (number n).Legible limit :=
  ⟨trivial, Nat.zero_le _⟩

@[simp] theorem legible_string (limit : Nat) (s : String) : (string s).Legible limit :=
  ⟨trivial, Nat.zero_le _⟩

theorem sortedItems_iff {items : List Json} : SortedItems items ↔ ∀ x ∈ items, x.Sorted := by
  induction items with
  | nil => simp [SortedItems]
  | cons x xs ih => simp [SortedItems, ih]

theorem sortedMembers_iff {members : List (String × Json)} :
    SortedMembers members ↔ ∀ m ∈ members, m.2.Sorted := by
  induction members with
  | nil => simp [SortedMembers]
  | cons m ms ih => simp [SortedMembers, ih]

theorem depthItems_le {items : List Json} {limit : Nat} :
    depthItems items ≤ limit ↔ ∀ x ∈ items, x.depth ≤ limit := by
  induction items with
  | nil => simp [depthItems]
  | cons x xs ih => simp [depthItems, ih]

theorem depthMembers_le {members : List (String × Json)} {limit : Nat} :
    depthMembers members ≤ limit ↔ ∀ m ∈ members, m.2.depth ≤ limit := by
  induction members with
  | nil => simp [depthMembers]
  | cons m ms ih => simp [depthMembers, ih]

theorem legible_array {limit : Nat} {items : List Json} :
    (array items).Legible (limit + 1) ↔ ∀ x ∈ items, x.Legible limit := by
  constructor
  · intro h x hx
    exact ⟨sortedItems_iff.mp h.sorted x hx, depthItems_le.mp (Nat.le_of_succ_le_succ h.depth) x hx⟩
  · intro h
    exact ⟨sortedItems_iff.mpr fun x hx => (h x hx).sorted,
      Nat.succ_le_succ (depthItems_le.mpr fun x hx => (h x hx).depth)⟩

theorem legible_object {limit : Nat} {members : List (String × Json)} :
    (object members).Legible (limit + 1) ↔
      Object.Ascending members ∧ ∀ m ∈ members, m.2.Legible limit := by
  constructor
  · intro h
    exact ⟨h.sorted.1, fun m hm => ⟨sortedMembers_iff.mp h.sorted.2 m hm,
      depthMembers_le.mp (Nat.le_of_succ_le_succ h.depth) m hm⟩⟩
  · rintro ⟨hkeys, h⟩
    exact ⟨⟨hkeys, sortedMembers_iff.mpr fun m hm => (h m hm).sorted⟩,
      Nat.succ_le_succ (depthMembers_le.mpr fun m hm => (h m hm).depth)⟩

namespace Legible

theorem mono {limit more : Nat} {v : Json} (h : v.Legible limit) (hle : limit ≤ more) :
    v.Legible more := ⟨h.sorted, Nat.le_trans h.depth hle⟩

/-- The object of readable members is readable one level up. -/
theorem ofMembers {limit : Nat} {members : List (String × Json)}
    (h : ∀ m ∈ members, m.2.Legible limit) : (Json.ofMembers members).Legible (limit + 1) :=
  legible_object.mpr ⟨Object.ascending_ofList members, fun m hm =>
    h m (Object.mem_of_mem_ofList hm)⟩

theorem ofOptions {limit : Nat} {members : List (String × Option Json)}
    (h : ∀ m ∈ members, ∀ v, m.2 = some v → v.Legible limit) :
    (Json.object (Object.ofOptions members)).Legible (limit + 1) :=
  legible_object.mpr ⟨Object.ascending_ofList _, fun m hm =>
    h _ (Object.mem_of_mem_ofOptions hm) m.2 rfl⟩

theorem insert {limit : Nat} {key : String} {v : Json} {o : Object}
    (h : (Json.object o).Legible (limit + 1)) (hv : v.Legible limit) :
    (Json.object (Object.insert key v o)).Legible (limit + 1) := by
  obtain ⟨hkeys, hmembers⟩ := legible_object.mp h
  refine legible_object.mpr ⟨Object.ascending_insert hkeys, fun m hm => ?_⟩
  rcases Object.mem_of_mem_insert hm with rfl | hm
  · exact hv
  · exact hmembers m hm

/-- What is found in a readable object is readable one level down. -/
theorem field? {limit : Nat} {o : Object} (h : (Json.object o).Legible (limit + 1))
    {key : String} {v : Json} (hv : Object.field? o key = some v) : v.Legible limit :=
  (legible_object.mp h).2 _ (Object.mem_of_field? hv)

end Legible

end Json

/-! ### What is read can be read again -/

namespace Written

mutual

/-- A value that has been read is readable. -/
theorem legible_of_value? : ∀ (w : Written) {limit : Nat} {v : Json},
    value? limit w = some v → v.Legible limit
  | .null, limit, v, h => by
      obtain rfl := Option.some.inj h
      exact Json.legible_null limit
  | .bool b, limit, v, h => by
      obtain rfl := Option.some.inj h
      exact Json.legible_bool limit b
  | .numeral n, limit, v, h => by
      obtain ⟨m, -, rfl⟩ := Option.map_eq_some_iff.mp h
      exact Json.legible_number limit m
  | .string s, limit, v, h => by
      obtain ⟨t, -, rfl⟩ := Option.map_eq_some_iff.mp h
      exact Json.legible_string limit t
  | .array ws, 0, v, h => by cases h
  | .array ws, limit + 1, v, h => by
      obtain ⟨items, hitems, rfl⟩ := Option.map_eq_some_iff.mp h
      exact Json.legible_array.mpr (legible_of_values? ws hitems)
  | .object ws, 0, v, h => by cases h
  | .object ws, limit + 1, v, h => by
      obtain ⟨members, hmembers, rfl⟩ := Option.map_eq_some_iff.mp h
      exact .ofMembers (legible_of_memberValues? ws hmembers)

theorem legible_of_values? : ∀ (ws : List Written) {limit : Nat} {items : List Json},
    values? limit ws = some items → ∀ x ∈ items, x.Legible limit
  | [], limit, items, h => by
      obtain rfl := Option.some.inj h
      exact nofun
  | w :: ws, limit, items, h => by
      obtain ⟨x, hx, h⟩ := Option.bind_eq_some_iff.mp h
      obtain ⟨xs, hxs, h⟩ := Option.bind_eq_some_iff.mp h
      obtain rfl := Option.some.inj h
      exact List.forall_mem_cons.mpr ⟨legible_of_value? w hx, legible_of_values? ws hxs⟩

theorem legible_of_memberValues? : ∀ (ws : List (Option String × Written)) {limit : Nat}
    {members : List (String × Json)}, memberValues? limit ws = some members →
      ∀ m ∈ members, m.2.Legible limit
  | [], limit, members, h => by
      obtain rfl := Option.some.inj h
      exact nofun
  | (key, w) :: ws, limit, members, h => by
      obtain ⟨k, -, h⟩ := Option.bind_eq_some_iff.mp h
      obtain ⟨x, hx, h⟩ := Option.bind_eq_some_iff.mp h
      obtain ⟨xs, hxs, h⟩ := Option.bind_eq_some_iff.mp h
      obtain rfl := Option.some.inj h
      exact List.forall_mem_cons.mpr ⟨legible_of_value? w hx, legible_of_memberValues? ws hxs⟩

end

end Written

theorem Json.legible_of_ofText? {text : String} {v : Json} (h : Json.ofText? text = some v) :
    v.Legible Written.maxDepth := by
  obtain ⟨w, -, hw⟩ := Option.bind_eq_some_iff.mp h
  exact w.legible_of_value? hw

/-! ### Objects that have been read -/

namespace Json.Sorted

variable {o : Object}

theorem ascending (h : (Json.object o).Sorted) : Object.Ascending o := by
  rw [Json.Sorted] at h
  exact h.1

/-- No key repeats. -/
theorem nodup (h : (Json.object o).Sorted) : (o.map Prod.fst).Nodup :=
  (Object.ascending_iff_keys.mp h.ascending).imp ne_of_lt

/-- The objects inside are sorted too. -/
theorem object? {fragment : Object} {name : String} (h : (Json.object o).Sorted)
    (hfragment : Object.object? o name = some fragment) : (Json.object fragment).Sorted := by
  rw [Json.Sorted] at h
  exact sortedMembers_iff.mp h.2 _ (Object.mem_of_field? (Object.field?_of_object? hfragment))

end Json.Sorted

theorem Object.sorted_of_ofText? {text : String} {o : Object} (h : ofText? text = some o) :
    (Json.object o).Sorted := by
  obtain ⟨v, hv, hobject⟩ := Option.bind_eq_some_iff.mp h
  cases v with
  | object members =>
      obtain rfl : members = o := Option.some.inj hobject
      exact (Json.legible_of_ofText? hv).sorted
  | _ => cases hobject

end DeviceConfig
