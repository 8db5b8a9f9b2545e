/-
What a number is worth.

A number in a document has an exact value, which may be a fraction.  A rule does not look at that
value but at the nearest double, and a field does not keep it but a word.  As long as the limit
of a rule is a whole number with few digits, neither makes a difference.  A number on one side of
the limit is not rounded to the other side, because the limit is a double itself; and what is kept
of a number within the limits of a word is its integer part.

The one thing to take care of are the long whole numbers.  They are rounded, and it has to be shown
that there is a double to round them to.
-/
import Mathlib.Data.Rat.Floor
import DeviceConfig.Proofs.Rounding
import DeviceConfig.Rule

namespace DeviceConfig

/-! ### Rounding long numbers -/

theorem divEven_bounds (num den : Nat) :
    num / den ≤ divEven num den ∧ divEven num den ≤ num / den + 1 := by
  unfold divEven
  simp only
  split
  · omega
  · split <;> omega

/-- Rounding cuts off the low digits, and then may count up once. -/
theorem Format.round_one (f : Format) (units : Nat) :
    ∃ m, f.round units 1 = m * Nat.pow 2 (f.shift units) ∧
      units / Nat.pow 2 (f.shift units) ≤ m ∧ m ≤ units / Nat.pow 2 (f.shift units) + 1 := by
  refine ⟨divEven units (Nat.pow 2 (f.shift units)), ?_, divEven_bounds _ _⟩
  rw [round, Nat.div_one, Nat.one_mul]

namespace Double

/-- A whole number of more than 53 digits has a double if it has no more than 64, and that double
has more than 53 digits too. -/
theorem holds_round_long {n : Nat} (hlong : Nat.pow 2 53 ≤ n) (hn : n < Nat.pow 2 64) :
    Format.binary64.Holds (Format.binary64.round (n * unit) 1) ∧
      Nat.pow 2 53 * unit ≤ Format.binary64.round (n * unit) 1 := by
  obtain ⟨m, hround, hlow, hhigh⟩ := Format.binary64.round_one (n * unit)
  have hunits : n * unit ≠ 0 :=
    Nat.mul_ne_zero (Nat.ne_of_gt (Nat.lt_of_lt_of_le (pow_pos_two 53) hlong))
      (Nat.ne_of_gt unit_pos)
  have hadd : ∀ i j, Nat.pow 2 i * Nat.pow 2 j = Nat.pow 2 (i + j) :=
    fun i j => (Nat.pow_add 2 i j).symm
  have hunit : ∀ k, Nat.pow 2 k * unit = Nat.pow 2 (k + Format.binary64.scale) := by
    unfold unit
    exact fun k => hadd k _
  have hscale : Format.binary64.scale = 1074 := rfl
  have hatLeast : ∀ k, Nat.pow 2 k ≤ n * unit ↔ k ≤ (n * unit).log2 :=
    fun k => (Nat.le_log2 hunits).symm
  have hbelow : ∀ k, n * unit < Nat.pow 2 k ↔ (n * unit).log2 < k :=
    fun k => (Nat.log2_lt hunits).symm
  -- The leading digit decides how many digits are cut off.
  have hleast : 53 + Format.binary64.scale ≤ (n * unit).log2 := by
    rw [← hatLeast, ← hunit]
    exact Nat.mul_le_mul_right unit hlong
  have hmost : (n * unit).log2 < 64 + Format.binary64.scale := by
    rw [← hbelow, ← hunit]
    exact Nat.mul_lt_mul_of_pos_right hn unit_pos
  obtain ⟨s, hs⟩ : ∃ s, (n * unit).log2 = 52 + s := ⟨(n * unit).log2 - 52, by omega⟩
  have hshift : Format.binary64.shift (n * unit) = s := by
    show (n * unit).log2 + 1 - 53 = s
    omega
  rw [hshift] at hround hlow hhigh
  have hfirst : Nat.pow 2 52 * Nat.pow 2 s ≤ n * unit := by
    rw [hadd, hatLeast, hs]
  have hlast : n * unit < Nat.pow 2 53 * Nat.pow 2 s := by
    rw [hadd, hbelow, hs]
    omega
  have hm : Nat.pow 2 52 ≤ m :=
    Nat.le_trans ((Nat.le_div_iff_mul_le (pow_pos_two s)).mpr hfirst) hlow
  have hm' : m ≤ Nat.pow 2 53 :=
    Nat.le_trans hhigh ((Nat.div_lt_iff_lt_mul (pow_pos_two s)).mpr hlast)
  have hmono : ∀ {i j}, i ≤ j → Nat.pow 2 i ≤ Nat.pow 2 j := Nat.pow_le_pow_right (by decide)
  rw [hround]
  constructor
  · rcases Nat.lt_or_eq_of_le hm' with hlt | rfl
    · exact Format.holds_of_short s hlt (by simp only [Format.binary64]; omega)
    · rw [hadd, ← Nat.one_mul (Nat.pow 2 (53 + s))]
      exact Format.holds_of_short (53 + s) (by decide) (by simp only [Format.binary64]; omega)
  · have hproduct : Nat.pow 2 53 * unit ≤ Nat.pow 2 52 * Nat.pow 2 s := by
      rw [hunit, hadd]
      exact hmono (by omega)
    exact Nat.le_trans hproduct (Nat.mul_le_mul_right _ hm)

/-- A whole number is exact if it is short, and stays long if it is long. -/
theorem ofInt_magnitude {n : Int} (hn : n.natAbs < Nat.pow 2 64) :
    (ofInt n).negative = decide (n < 0) ∧
      if n.natAbs < Nat.pow 2 53 then (ofInt n).units = n.natAbs * unit
      else Nat.pow 2 53 * unit ≤ (ofInt n).units := by
  have hof : ∀ h : Format.binary64.Holds (Format.binary64.round (n.natAbs * unit) 1),
      ofInt n = ⟨decide (n < 0), _, h⟩ := by
    intro h
    simp only [ofInt, ofRatio?, Finite.of?_of_holds _ h, Option.getD_some]
  by_cases hshort : n.natAbs < Nat.pow 2 53
  · have hround : Format.binary64.round (n.natAbs * unit) 1 = n.natAbs * unit := by
      have h := Format.round_of_holds (holds_unit_mul hshort) Nat.one_pos
      rwa [Nat.mul_one] at h
    rw [hof (hround.symm ▸ holds_unit_mul hshort), if_pos hshort]
    exact ⟨rfl, hround⟩
  · obtain ⟨hholds, hlong⟩ := holds_round_long (Nat.le_of_not_lt hshort) hn
    rw [hof hholds, if_neg hshort]
    exact ⟨rfl, hlong⟩

/-- A whole number compares to a short natural number as their doubles do. -/
theorem ofInt_compare {n : Int} (hn : n.natAbs < Nat.pow 2 64) {k : Nat} (hk : k < Nat.pow 2 53) :
    ((ofInt n).toInt ≤ (ofInt k).toInt ↔ n ≤ k) ∧ ((ofInt k).toInt ≤ (ofInt n).toInt ↔ k ≤ n) := by
  obtain ⟨hsign, hunits⟩ := ofInt_magnitude hn
  have hpos := unit_pos
  rw [toInt_ofInt hk, ← Int.natCast_mul, Finite.toInt, hsign]
  by_cases hshort : n.natAbs < Nat.pow 2 53
  · rw [if_pos hshort] at hunits
    have hle : n.natAbs * unit ≤ k * unit ↔ n.natAbs ≤ k := Nat.mul_le_mul_right_iff hpos
    have hge : k * unit ≤ n.natAbs * unit ↔ k ≤ n.natAbs := Nat.mul_le_mul_right_iff hpos
    by_cases hneg : n < 0
    · have hunit : 1 * unit ≤ n.natAbs * unit := Nat.mul_le_mul_right unit (by omega)
      simp only [hneg, decide_true, if_true]
      omega
    · simp only [hneg, decide_false, Bool.false_eq_true, if_false]
      omega
  · rw [if_neg hshort] at hunits
    have hlong : k * unit < Nat.pow 2 53 * unit := Nat.mul_lt_mul_of_pos_right hk hpos
    by_cases hneg : n < 0
    · simp only [hneg, decide_true, if_true]
      omega
    · simp only [hneg, decide_false, Bool.false_eq_true, if_false]
      omega

end Double

/-! ### Values -/

namespace Number

/-- What a number is worth. -/
def value : Number → ℚ
  | .integer n _ => n
  | .double x => x.toInt / Double.unit

/-- A number compares to a short natural number as its double does. -/
theorem toDouble_compare (n : Number) {k : Nat} (hk : k < Nat.pow 2 53) :
    (n.toDouble.toInt ≤ (Double.ofInt k).toInt ↔ n.value ≤ k) ∧
      ((Double.ofInt k).toInt ≤ n.toDouble.toInt ↔ k ≤ n.value) := by
  cases n with
  | integer n hbounded =>
      have hn : n.natAbs < Nat.pow 2 64 := by
        have hpow : Nat.pow 2 64 = 18446744073709551616 := by decide
        omega
      obtain ⟨hle, hge⟩ := Double.ofInt_compare hn hk
      exact ⟨hle.trans Int.cast_le.symm, hge.trans Int.cast_le.symm⟩
  | double x =>
      have hpos : (0 : ℚ) < Double.unit := Nat.cast_pos.mpr Double.unit_pos
      show (x.toInt ≤ _ ↔ (x.toInt : ℚ) / Double.unit ≤ k) ∧
        (_ ≤ x.toInt ↔ (k : ℚ) ≤ x.toInt / Double.unit)
      rw [Double.toInt_ofInt hk, div_le_iff₀ hpos, le_div_iff₀ hpos]
      constructor <;> exact_mod_cast Iff.rfl

/-- **A word keeps the integer part of a number within its limits.** -/
theorem toNat_toWord (n : Number) (hlow : 0 ≤ n.value) (hhigh : n.value ≤ (4294967295 : Nat)) :
    n.toDouble.toWord.toNat = ⌊n.value⌋₊ := by
  cases n with
  | integer n hbounded =>
      obtain ⟨m, rfl⟩ := Int.eq_ofNat_of_zero_le (Int.cast_nonneg_iff.mp hlow)
      have hhigh : m ≤ 4294967295 := by
        have h : ((m : Int) : ℚ) ≤ (4294967295 : Nat) := hhigh
        rwa [Int.cast_natCast, Nat.cast_le] at h
      have hword : (UInt32.ofNat m).toNat = m := UInt32.toNat_ofNat_of_lt' (by
        show m < 4294967296
        omega)
      have hback := Double.toWord_ofInt (UInt32.ofNat m)
      rw [hword] at hback
      show (Double.ofInt m).toWord.toNat = ⌊((m : Int) : ℚ)⌋₊
      rw [hback, hword, Int.cast_natCast, Nat.floor_natCast]
  | double x =>
      have hpos : (0 : ℚ) < Double.unit := Nat.cast_pos.mpr Double.unit_pos
      have hlow : 0 ≤ x.toInt := by
        have h : (0 : ℚ) ≤ x.toInt / Double.unit := hlow
        rw [le_div_iff₀ hpos, zero_mul] at h
        exact_mod_cast h
      obtain ⟨units, hunits⟩ := Int.eq_ofNat_of_zero_le hlow
      have hfloor : ⌊(Number.double x).value⌋₊ = units / Double.unit := by
        show ⌊(x.toInt : ℚ) / Double.unit⌋₊ = _
        rw [hunits, Int.cast_natCast]
        exact Rat.natFloor_natCast_div_natCast _ _
      have hmost : units / Double.unit ≤ 4294967295 := by
        rw [← hfloor]
        exact Nat.floor_le_of_le hhigh
      have hword := Double.toNat_toWord x
      rw [max_eq_left hlow, hunits, ← Int.natCast_ediv] at hword
      show x.toWord.toNat = _
      rw [hfloor]
      omega

end Number

end DeviceConfig
