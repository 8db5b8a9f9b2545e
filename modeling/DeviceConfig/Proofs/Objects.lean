/-
Looking up the members of an object.

Everything that reads an object reads it through `field?`.  Here is what that finds after a
member has been put in or taken out, in an object that was written from a list of members, and
in an object that is the same as another.
-/
import Mathlib.Data.List.Forall2
import DeviceConfig.Json.Object

namespace DeviceConfig

namespace Object

/-! ### One member -/

theorem field?_cons (k : String) (v : Json) (o : Object) (key : String) :
    field? ((k, v) :: o) key = if key = k then some v else field? o key := by
  unfold field?
  by_cases h : key = k
  · rw [h, List.lookup_cons_self, if_pos rfl]
  · rw [List.lookup_cons, beq_eq_false_iff_ne.mpr h, if_neg h]

theorem mem_of_field? {o : Object} {key : String} {v : Json} (h : field? o key = some v) :
    (key, v) ∈ o := by
  obtain ⟨before, after, rfl, -⟩ := List.lookup_eq_some_iff.mp h
  simp

/-- Where no key repeats, every member is found. -/
theorem field?_of_mem {o : Object} (hkeys : (o.map Prod.fst).Nodup) {key : String} {v : Json}
    (h : (key, v) ∈ o) : field? o key = some v := by
  induction o with
  | nil => cases h
  | cons m rest ih =>
      obtain ⟨k, w⟩ := m
      rw [List.map_cons, List.nodup_cons] at hkeys
      rw [field?_cons]
      rcases List.mem_cons.mp h with heq | hrest
      · obtain ⟨rfl, rfl⟩ := Prod.mk.inj heq
        exact if_pos rfl
      · have hne : key ≠ k := by
          rintro rfl
          exact hkeys.1 (List.mem_map.mpr ⟨_, hrest, rfl⟩)
        rw [if_neg hne, ih hkeys.2 hrest]

/-- A field that holds an object holds the value of its members. -/
theorem field?_of_object? {o fragment : Object} {key : String}
    (h : object? o key = some fragment) : field? o key = some (.object fragment) := by
  obtain ⟨v, hv, hobject⟩ := Option.bind_eq_some_iff.mp h
  cases v with
  | object members =>
      obtain rfl : members = fragment := Option.some.inj hobject
      exact hv
  | _ => cases hobject

theorem object?_of_field? {o fragment : Object} {key : String}
    (h : field? o key = some (.object fragment)) : object? o key = some fragment := by
  rw [object?, h]
  rfl

theorem array?_of_field? {o : Object} {items : List Json} {key : String}
    (h : field? o key = some (.array items)) : array? o key = some items := by
  rw [array?, h]
  rfl

theorem double?_of_field? {o : Object} {v : Json} {key : String} (h : field? o key = some v) :
    double? o key = v.double? := by
  rw [double?, h]
  rfl

theorem field?_insert (key : String) (v : Json) (o : Object) (other : String) :
    field? (insert key v o) other = if other = key then some v else field? o other := by
  induction o with
  | nil => exact field?_cons key v [] other
  | cons m rest ih =>
      obtain ⟨k, w⟩ := m
      unfold insert
      by_cases hlt : key < k
      · rw [if_pos hlt, field?_cons]
      · rw [if_neg hlt]
        by_cases heq : key = k
        · subst heq
          rw [if_pos rfl, field?_cons, field?_cons]
          by_cases hother : other = key <;> simp [hother]
        · rw [if_neg heq, field?_cons, ih, field?_cons]
          by_cases hother : other = k
          · simp [hother, Ne.symm heq]
          · simp [hother]

theorem field?_erase (key : String) (o : Object) (other : String) :
    field? (erase key o) other = if other = key then none else field? o other := by
  induction o with
  | nil => exact (ite_self none).symm
  | cons m rest ih =>
      obtain ⟨k, w⟩ := m
      unfold erase at ih ⊢
      by_cases hk : k = key
      · subst hk
        rw [List.filter_cons_of_neg (by simp), ih, field?_cons]
        by_cases hother : other = k <;> simp [hother]
      · rw [List.filter_cons_of_pos (by simpa using hk), field?_cons, field?_cons, ih]
        by_cases hother : other = k
        · simp [hother, hk]
        · simp [hother]

theorem field?_eraseAll (keys : List String) (other : String) :
    ∀ o : Object,
      field? (eraseAll keys o) other = if other ∈ keys then none else field? o other := by
  induction keys with
  | nil => intro o; simp [eraseAll]
  | cons key rest ih =>
      intro o
      show field? (eraseAll rest (erase key o)) other = _
      rw [ih, field?_erase]
      by_cases hrest : other ∈ rest <;> simp [hrest]

/-! ### Members written in a list -/

theorem field?_foldl_insert (key : String) :
    ∀ (members : List (String × Json)) (o : Object), key ∉ members.map Prod.fst →
      field? (members.foldl (fun o m => insert m.1 m.2 o) o) key = field? o key := by
  intro members
  induction members with
  | nil => intro o _; rfl
  | cons m rest ih =>
      intro o h
      rw [List.map_cons, List.mem_cons, not_or] at h
      show field? (rest.foldl _ (insert m.1 m.2 o)) key = _
      rw [ih _ h.2, field?_insert, if_neg h.1]

/-- A member is found under its key if no other has the same key. -/
theorem field?_ofList_of_mem {members : List (String × Json)} {key : String} {v : Json}
    (hkeys : (members.map Prod.fst).Nodup) (h : (key, v) ∈ members) :
    field? (ofList members) key = some v := by
  obtain ⟨before, after, rfl⟩ := List.append_of_mem h
  rw [List.map_append, List.map_cons, List.nodup_append] at hkeys
  have hafter : key ∉ after.map Prod.fst := (List.nodup_cons.mp hkeys.2.1).1
  unfold ofList
  rw [List.foldl_append, List.foldl_cons, field?_foldl_insert key after _ hafter,
    field?_insert, if_pos rfl]

/-- An optional member is found under its key, if it is present and no other has the same key. -/
theorem field?_ofOptions {members : List (String × Option Json)} {key : String}
    {found : Option Json} (hkeys : (members.map Prod.fst).Nodup) (h : (key, found) ∈ members) :
    field? (ofOptions members) key = found := by
  have hpresent : ∀ {others : List (String × Option Json)}, key ∉ others.map Prod.fst →
      key ∉ (others.filterMap fun m => m.2.map (m.1, ·)).map Prod.fst := by
    intro others hothers hmem
    obtain ⟨⟨k, v⟩, hv, rfl⟩ := List.mem_map.mp hmem
    obtain ⟨m, hm, hmv⟩ := List.mem_filterMap.mp hv
    obtain ⟨w, -, heq⟩ := Option.map_eq_some_iff.mp hmv
    exact hothers (List.mem_map.mpr ⟨m, hm, congrArg Prod.fst heq⟩)
  obtain ⟨before, after, rfl⟩ := List.append_of_mem h
  rw [List.map_append, List.map_cons, List.nodup_append] at hkeys
  have hafter : key ∉ after.map Prod.fst := (List.nodup_cons.mp hkeys.2.1).1
  have hbefore : key ∉ before.map Prod.fst := fun hmem =>
    hkeys.2.2 key hmem key List.mem_cons_self rfl
  unfold ofOptions ofList
  rw [List.filterMap_append, List.foldl_append]
  cases found with
  | none =>
      rw [List.filterMap_cons_none rfl, field?_foldl_insert key _ _ (hpresent hafter),
        field?_foldl_insert key _ _ (hpresent hbefore)]
      rfl
  | some v =>
      simp only [List.filterMap_cons, Option.map_some, List.foldl_cons]
      rw [field?_foldl_insert key _ _ (hpresent hafter), field?_insert, if_pos rfl]

end Object

/-! ### Objects that are the same -/

namespace Json

/-- What is the same as an object is an object with the same members. -/
theorem object_of_same {v : Json} {p : Object} (h : v.same (.object p) = true) :
    ∃ o, v = .object o ∧ sameMembers o p = true := by
  cases v with
  | object o => exact ⟨o, rfl, h⟩
  | _ => cases h

/-- Two members have one key and the same value. -/
def SameMember (m n : String × Json) : Prop := m.1 = n.1 ∧ m.2.same n.2 = true

/-- Arrays are the same if they are item by item. -/
theorem sameItems_iff : ∀ {xs ys : List Json},
    sameItems xs ys = true ↔ List.Forall₂ (fun x y => x.same y = true) xs ys
  | [], [] | [], _ :: _ | _ :: _, [] => by simp [sameItems]
  | x :: xs, y :: ys => by
      rw [sameItems, Bool.and_eq_true, List.forall₂_cons, sameItems_iff]

/-- Objects are the same if they are member by member. -/
theorem sameMembers_iff : ∀ {o p : Object},
    sameMembers o p = true ↔ List.Forall₂ SameMember o p
  | [], [] | [], _ :: _ | _ :: _, [] => by simp [sameMembers]
  | (j, x) :: o, (k, y) :: p => by
      rw [sameMembers, Bool.and_eq_true, Bool.and_eq_true, beq_iff_eq, List.forall₂_cons,
        sameMembers_iff]
      rfl

/-- Objects that are the same have the same under every key. -/
theorem field?_of_sameMembers (key : String) {o p : Object} (h : sameMembers o p = true) :
    match Object.field? p key with
    | some w => ∃ v, Object.field? o key = some v ∧ v.same w = true
    | none => Object.field? o key = none := by
  rw [sameMembers_iff] at h
  induction h with
  | nil => rfl
  | @cons m n o p hm _ ih =>
      obtain ⟨j, x⟩ := m
      obtain ⟨k, y⟩ := n
      obtain ⟨rfl, hvalue⟩ : j = k ∧ x.same y = true := hm
      rw [Object.field?_cons, Object.field?_cons]
      by_cases hj : key = j
      · rw [if_pos hj, if_pos hj]
        exact ⟨x, rfl, hvalue⟩
      · rw [if_neg hj, if_neg hj]
        exact ih

/-- An object that is what was written from a list of members has the same as each of them. -/
theorem field?_of_same_ofMembers {members : List (String × Json)}
    (hkeys : (members.map Prod.fst).Nodup) {o : Object}
    (h : (Json.object o).same (.ofMembers members) = true) {key : String} {w : Json}
    (hw : (key, w) ∈ members) : ∃ v, Object.field? o key = some v ∧ v.same w = true := by
  have hfield := field?_of_sameMembers key (o := o) (p := Object.ofList members) h
  rw [Object.field?_ofList_of_mem hkeys hw] at hfield
  exact hfield

end Json

end DeviceConfig
