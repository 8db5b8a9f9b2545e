/-
When a check accepts.

A check accepts an object if every rule admits the values under its field, and every part accepts
the objects under its name.  A rule does not tell values apart that are the same: it goes by their
kind, and by what number they are.  So to accept an object that is the same as another, it is
enough to look at the members of the other.
-/
import DeviceConfig.Proofs.Checks

namespace DeviceConfig

/-! ### Members -/

namespace Object

theorem mem_of_mem_insert {key : String} {v : Json} {o : Object} {m : String × Json}
    (h : m ∈ insert key v o) : m = (key, v) ∨ m ∈ o := by
  induction o with
  | nil => exact .inl (List.mem_singleton.mp h)
  | cons n rest ih =>
      obtain ⟨k, w⟩ := n
      unfold insert at h
      by_cases hlt : key < k
      · rw [if_pos hlt] at h
        exact List.mem_cons.mp h
      · rw [if_neg hlt] at h
        by_cases heq : key = k
        · rw [if_pos heq] at h
          exact (List.mem_cons.mp h).imp id (List.mem_cons_of_mem _)
        · rw [if_neg heq] at h
          rcases List.mem_cons.mp h with rfl | h
          · exact .inr List.mem_cons_self
          · exact (ih h).imp id (List.mem_cons_of_mem _)

/-- An object has no members but those it was written from. -/
theorem mem_of_mem_ofList {members : List (String × Json)} {m : String × Json}
    (h : m ∈ ofList members) : m ∈ members := by
  have hfold : ∀ (l : List (String × Json)) (o : Object),
      m ∈ l.foldl (fun o n => insert n.1 n.2 o) o → m ∈ l ∨ m ∈ o := by
    intro l
    induction l with
    | nil => intro o ho; exact .inr ho
    | cons n rest ih =>
        intro o ho
        rcases ih _ ho with hrest | hinsert
        · exact .inl (List.mem_cons_of_mem _ hrest)
        · rcases mem_of_mem_insert hinsert with rfl | ho
          · exact .inl List.mem_cons_self
          · exact .inr ho
  exact (hfold members [] h).resolve_right List.not_mem_nil

theorem mem_of_mem_ofOptions {members : List (String × Option Json)} {key : String} {v : Json}
    (h : (key, v) ∈ ofOptions members) : (key, some v) ∈ members := by
  obtain ⟨⟨k, found⟩, hmem, hfound⟩ := List.mem_filterMap.mp (mem_of_mem_ofList h)
  obtain ⟨w, hw, heq⟩ := Option.map_eq_some_iff.mp hfound
  obtain ⟨rfl, rfl⟩ := Prod.mk.inj heq
  rw [← hw]
  exact hmem

/-- The only value under a key is the one that was written there, if no key repeats. -/
theorem eq_of_mem_ofList {members : List (String × Json)} {key : String} {v w : Json}
    (hv : (key, v) ∈ ofList members) (hkeys : (members.map Prod.fst).Nodup)
    (hw : (key, w) ∈ members) : v = w := by
  have hmem := mem_of_mem_ofList hv
  exact Option.some.inj
    ((field?_ofList_of_mem hkeys hmem).symm.trans (field?_ofList_of_mem hkeys hw))

theorem eq_of_mem_ofOptions {members : List (String × Option Json)} {key : String} {v : Json}
    {w : Option Json} (hv : (key, v) ∈ ofOptions members)
    (hkeys : (members.map Prod.fst).Nodup) (hw : (key, w) ∈ members) : w = some v := by
  have hmem := mem_of_mem_ofOptions hv
  exact (field?_ofOptions hkeys hw).symm.trans (field?_ofOptions hkeys hmem)

end Object

namespace Json

/-- Objects that are the same have the same members. -/
theorem mem_of_sameMembers {o p : Object} (h : sameMembers o p = true) {m : String × Json}
    (hm : m ∈ o) : ∃ w, (m.1, w) ∈ p ∧ m.2.same w = true := by
  rw [sameMembers_iff] at h
  induction h with
  | nil => cases hm
  | @cons m' n o p hsame _ ih =>
      rcases List.mem_cons.mp hm with rfl | hm
      · refine ⟨n.2, ?_, hsame.2⟩
        rw [hsame.1]
        exact List.mem_cons_self
      · obtain ⟨w, hw, hvalue⟩ := ih hm
        exact ⟨w, List.mem_cons_of_mem _ hw, hvalue⟩

/-- Arrays that are the same have the same items. -/
theorem mem_of_sameItems {xs ys : List Json} (h : sameItems xs ys = true) {x : Json}
    (hx : x ∈ xs) : ∃ y ∈ ys, x.same y = true := by
  rw [sameItems_iff] at h
  induction h with
  | nil => cases hx
  | @cons v w xs ys hvalue _ ih =>
      rcases List.mem_cons.mp hx with rfl | hx
      · exact ⟨w, List.mem_cons_self, hvalue⟩
      · obtain ⟨y, hy, hsame⟩ := ih hx
        exact ⟨y, List.mem_cons_of_mem _ hy, hsame⟩

/-! ### What rules go by -/

theorem kind_of_same {v w : Json} (h : v.same w = true) : v.kind = w.kind := by
  cases v <;> cases w <;> first | rfl | cases h

/-- Values that are the same are the same number, if they are numbers. -/
theorem toInt_double?_of_same {v w : Json} (h : v.same w = true) :
    v.double?.map Finite.toInt = w.double?.map Finite.toInt := by
  cases v with
  | number m =>
      cases w with
      | number n =>
          cases m with
          | integer i _ => cases n with
            | integer j _ =>
                have hij : i = j := eq_of_beq h
                subst hij
                rfl
            | double y => cases h
          | double x => cases n with
            | integer j _ => cases h
            | double y => exact congrArg some (eq_of_beq h)
      | _ => cases h
  | _ => cases w <;> first | rfl | cases h

end Json

theorem Comparison.holds_of_toInt {x y : Double} (h : x.toInt = y.toInt) (c : Comparison)
    (limit : Double) : c.holds x limit = c.holds y limit := by
  cases c <;> simp only [holds, h]

/-- A rule does not tell values apart that are the same. -/
theorem Constraint.admits_of_same (c : Constraint) {v w : Json} (h : v.same w = true) :
    c.admits v = c.admits w := by
  cases c with
  | kind k => simp only [admits, Json.kind_of_same h]
  | bound comparison limit =>
      have hnumber := Json.toInt_double?_of_same h
      unfold admits
      cases hv : v.double? with
      | none =>
          rw [hv] at hnumber
          rw [Option.map_eq_none_iff.mp hnumber.symm]
      | some x =>
          rw [hv] at hnumber
          obtain ⟨y, hw, hxy⟩ := Option.map_eq_some_iff.mp hnumber.symm
          rw [hw]
          exact comparison.holds_of_toInt hxy.symm limit

/-! ### Accepting -/

/-- The rules admit whatever an object has under their fields. -/
def Rule.Admit (rules : List Rule) (p : Object) : Prop :=
  ∀ r ∈ rules, ∀ v, (r.field, v) ∈ p → r.constraint.admits v = true

/-- Rules accept an object that is the same as one that they admit. -/
theorem Rule.checkAll_of_same {rules : List Rule} {o p : Object}
    (hsame : Json.sameMembers o p = true) (h : Admit rules p) : checkAll rules o = .ok () := by
  refine Verdict.forM_eq_ok.mpr fun m hm => Verdict.forM_eq_ok.mpr fun r hr => ?_
  obtain ⟨hrule, hfield⟩ := List.mem_filter.mp hr
  obtain ⟨w, hw, hmw⟩ := Json.mem_of_sameMembers hsame hm
  rw [← eq_of_beq hfield] at hw
  have hadmits : r.constraint.admits m.2 = true := by
    rw [r.constraint.admits_of_same hmw]
    exact h r hrule w hw
  exact if_pos hadmits

/-- A check accepts an object that is the same as one that its rules admit and whose objects its
parts accept. -/
theorem Check.object_of_same {rules : List Rule} {parts : List (String × Check)} {o p : Object}
    (hsame : Json.sameMembers o p = true) (hrules : Rule.Admit rules p)
    (hparts : ∀ part ∈ parts, ∀ v, (part.1, v) ∈ p → ∀ fragment : Object,
      (Json.object fragment).same v = true → part.2 fragment = .ok ()) :
    object rules parts o = .ok () := by
  refine Verdict.bind_eq_ok.mpr ⟨?_, Rule.checkAll_of_same hsame hrules⟩
  refine Verdict.forM_eq_ok.mpr fun m hm => ?_
  obtain ⟨w, hw, hmw⟩ := Json.mem_of_sameMembers hsame hm
  unfold member
  split
  · rename_i fragment hfragment
    refine Verdict.forM_eq_ok.mpr fun part hpart => ?_
    split
    · rename_i hname
      rw [← hname] at hw
      rw [hfragment] at hmw
      exact hparts part hpart w hw fragment hmw
    · rfl
  · rfl

/-! ### Words under rules -/

theorem Double.toInt_word (w : UInt32) : (ofInt w.toNat).toInt = w.toNat * unit :=
  toInt_ofInt (word_short w)

theorem Double.isWhole_ofInt {n : Nat} (hn : n < 4294967296) : (ofInt n).isWhole = true := by
  rw [ofInt_natCast (Nat.lt_trans hn (by decide))]
  unfold isWhole
  simp

namespace Constraint

/-- A word stands to a limit that is a word as the two numbers do. -/
theorem admits_atLeast {w : UInt32} {n : Nat} (hn : n < 4294967296) (h : n ≤ w.toNat) :
    (bound .atLeast (OfNat.ofNat n)).admits (.word w) = true := by
  show decide ((Double.ofInt n).toInt ≤ (Double.ofInt w.toNat).toInt) = true
  rw [decide_eq_true_eq, Double.toInt_ofInt (Double.short_of_lt hn), Double.toInt_word]
  exact Int.mul_le_mul_of_nonneg_right (Int.ofNat_le.mpr h) (Int.natCast_nonneg _)

theorem admits_atMost {w : UInt32} {n : Nat} (hn : n < 4294967296) (h : w.toNat ≤ n) :
    (bound .atMost (OfNat.ofNat n)).admits (.word w) = true := by
  show decide ((Double.ofInt w.toNat).toInt ≤ (Double.ofInt n).toInt) = true
  rw [decide_eq_true_eq, Double.toInt_ofInt (Double.short_of_lt hn), Double.toInt_word]
  exact Int.mul_le_mul_of_nonneg_right (Int.ofNat_le.mpr h) (Int.natCast_nonneg _)

theorem admits_differs {w : UInt32} {n : Nat} (hn : n < 4294967296) (h : w.toNat ≠ n) :
    (bound .differs (OfNat.ofNat n)).admits (.word w) = true := by
  show ((Double.ofInt w.toNat).toInt != (Double.ofInt n).toInt) = true
  rw [Double.toInt_ofInt (Double.short_of_lt hn), Double.toInt_word, bne_iff_ne]
  have hunit : (Double.unit : Int) ≠ 0 := Int.natCast_ne_zero.mpr (Nat.ne_of_gt Double.unit_pos)
  exact fun heq => h (Int.ofNat_inj.mp (Int.eq_of_mul_eq_mul_right hunit heq))

/-- A finite single is shown as a number. -/
theorem admits_number_single {x : Single} (h : x.toDouble?.isSome = true) :
    (kind .number).admits (.single x) = true := by
  obtain ⟨d, hd⟩ := Option.isSome_iff_exists.mp h
  unfold Json.single
  rw [hd]
  rfl

end Constraint

namespace Rule.Admit

variable {p : Object}

theorem nil : Admit [] p := fun _ hr => absurd hr List.not_mem_nil

theorem cons {r : Rule} {rest : List Rule}
    (h : ∀ v, (r.field, v) ∈ p → r.constraint.admits v = true) (hrest : Admit rest p) :
    Admit (r :: rest) p := by
  intro r' hr'
  rcases List.mem_cons.mp hr' with rfl | hr'
  · exact h
  · exact hrest r' hr'

theorem append {rules rules' : List Rule} (h : Admit rules p) (h' : Admit rules' p) :
    Admit (rules ++ rules') p := by
  intro r hr
  rcases List.mem_append.mp hr with hr | hr
  · exact h r hr
  · exact h' r hr

theorem flatMap {α : Type} {f : α → List Rule} {l : List α} (h : ∀ x ∈ l, Admit (f x) p) :
    Admit (l.flatMap f) p := by
  intro r hr
  obtain ⟨x, hx, hrx⟩ := List.mem_flatMap.mp hr
  exact h x hx r hrx

/-- A field that is a word is a number that is not negative. -/
theorem natural {name : String} (h : ∀ v, (name, v) ∈ p → ∃ w, v = .word w) :
    Admit (Rule.natural name) p := by
  refine .cons (fun v hv => ?_) (.cons (fun v hv => ?_) .nil)
  · obtain ⟨w, rfl⟩ := h v hv
    rfl
  · obtain ⟨w, rfl⟩ := h v hv
    exact Constraint.admits_atLeast (n := 0) (by decide) (Nat.zero_le _)

/-- A field that is a word within limits is a number within limits. -/
theorem range {name : String} {low high : Nat} (hhigh : high < 4294967296)
    (h : ∀ v, (name, v) ∈ p → ∃ w : UInt32, v = .word w ∧ low ≤ w.toNat ∧ w.toNat ≤ high) :
    Admit (Rule.range name (OfNat.ofNat low) (OfNat.ofNat high)) p := by
  refine .cons (fun v hv => ?_) (.cons (fun v hv => ?_) (.cons (fun v hv => ?_) .nil))
  · obtain ⟨w, rfl, -⟩ := h v hv
    rfl
  · obtain ⟨w, rfl, hlow, hw⟩ := h v hv
    exact Constraint.admits_atLeast
      (Nat.lt_of_le_of_lt (Nat.le_trans hlow hw) hhigh) hlow
  · obtain ⟨w, rfl, -, hw⟩ := h v hv
    exact Constraint.admits_atMost hhigh hw

/-- A field of a kind obeys the rule that it has to be. -/
theorem kind {name : String} {k : Kind} {rest : List Rule}
    (h : ∀ v, (name, v) ∈ p → v.kind = k) (hrest : Admit rest p) :
    Admit (Rule.kind name k :: rest) p := by
  refine .cons (fun v hv => ?_) hrest
  exact beq_iff_eq.mpr (h v hv)

/-- An optional field that is shown as a value of a kind, if at all, obeys the rule that it has to
be one. -/
theorem optional {α : Type} {write : α → Json} {known : Option α} {k : Kind}
    {members : List (String × Option Json)} {name : String} {rest : List Rule}
    (hkeys : (members.map Prod.fst).Nodup) (hknown : (name, known.map write) ∈ members)
    (hkind : ∀ x, (write x).kind = k) (hrest : Admit rest (Object.ofOptions members)) :
    Admit (Rule.kind name k :: rest) (Object.ofOptions members) := by
  refine .kind (fun v hv => ?_) hrest
  obtain ⟨x, -, rfl⟩ :=
    Option.map_eq_some_iff.mp (Object.eq_of_mem_ofOptions hv hkeys hknown)
  exact hkind x

end Rule.Admit

end DeviceConfig
