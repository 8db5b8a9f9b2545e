/-
What rounding leaves as it is.

A count of units that a format holds is not changed by being rounded to that format.  So a whole
number that is not too long has an exact double, which gives the number back when it is cut down
to a word, and a single that has been widened comes back from its double.
-/
import DeviceConfig.Json.Value

namespace DeviceConfig

/-! ### Exact counts -/

theorem pow_pos_two (n : Nat) : 0 < Nat.pow 2 n := Nat.two_pow_pos n

theorem pow_sub_mul_pow_two {m n : Nat} (h : n ≤ m) :
    Nat.pow 2 (m - n) * Nat.pow 2 n = Nat.pow 2 m := by
  have hadd := Nat.pow_add 2 (m - n) n
  rw [Nat.sub_add_cancel h] at hadd
  exact hadd.symm

theorem divEven_mul_self (n : Nat) {den : Nat} (hden : 0 < den) : divEven (n * den) den = n := by
  unfold divEven
  simp only [Nat.mul_div_cancel n hden, Nat.mul_mod_left]
  rw [if_pos (by omega)]

namespace Format

/-- A count that the format holds is the nearest to itself. -/
theorem round_of_holds {f : Format} {units den : Nat} (h : f.Holds units) (hden : 0 < den) :
    f.round (units * den) den = units := by
  unfold round
  simp only [Nat.mul_div_cancel units hden]
  have hstep : 0 < Nat.pow 2 (f.shift units) := pow_pos_two _
  generalize hs : Nat.pow 2 (f.shift units) = step at hstep
  have hexact : units / step * step = units := by
    have hmod : units % step = 0 := by rw [← hs]; exact h.2
    exact Nat.div_mul_cancel (Nat.dvd_of_mod_eq_zero hmod)
  have hnum : units * den = units / step * (den * step) := by
    rw [Nat.mul_comm den step, ← Nat.mul_assoc, hexact]
  rw [hnum, divEven_mul_self _ (Nat.mul_pos hden hstep), hexact]

/-- Where there are few digits before some zeros, no more than these have to be left. -/
theorem shift_of_short {f : Format} {n : Nat} (zeros : Nat) (hn : n < Nat.pow 2 f.precision)
    (hzero : n * Nat.pow 2 zeros ≠ 0) : f.shift (n * Nat.pow 2 zeros) ≤ zeros := by
  have hlog : (n * Nat.pow 2 zeros).log2 < f.precision + zeros := by
    rw [Nat.log2_lt hzero, Nat.pow_add]
    exact Nat.mul_lt_mul_of_pos_right hn (pow_pos_two zeros)
  unfold shift
  omega

/-- A count with few digits before its zeros is held, unless it is too large. -/
theorem holds_of_short {f : Format} {n : Nat} (zeros : Nat) (hn : n < Nat.pow 2 f.precision)
    (hwidth : f.precision + zeros ≤ f.width) : f.Holds (n * Nat.pow 2 zeros) := by
  have hpos : 0 < Nat.pow 2 zeros := pow_pos_two zeros
  constructor
  · calc n * Nat.pow 2 zeros
      _ < Nat.pow 2 f.precision * Nat.pow 2 zeros := Nat.mul_lt_mul_of_pos_right hn hpos
      _ = Nat.pow 2 (f.precision + zeros) := (Nat.pow_add 2 f.precision zeros).symm
      _ ≤ Nat.pow 2 f.width := Nat.pow_le_pow_right (by decide) hwidth
  · by_cases hzero : n * Nat.pow 2 zeros = 0
    · rw [hzero]
      exact Nat.zero_mod _
    · exact Nat.mod_eq_zero_of_dvd
        (Nat.dvd_trans (Nat.pow_dvd_pow 2 (shift_of_short zeros hn hzero)) (Nat.dvd_mul_left _ n))

end Format

namespace Finite

variable {f : Format}

theorem of?_of_holds (negative : Bool) {units : Nat} (h : f.Holds units) :
    Finite.of? negative units = some (⟨negative, units, h⟩ : Finite f) := dif_pos h

theorem of?_eq_some {negative : Bool} {units : Nat} {x : Finite f}
    (h : Finite.of? negative units = some x) : x.negative = negative ∧ x.units = units := by
  unfold of? at h
  split at h
  · rw [← Option.some.inj h]
    exact ⟨rfl, rfl⟩
  · cases h

/-- Numbers of the same value have the same magnitude, and the same sign unless they are zero. -/
theorem same_iff {x y : Finite f} :
    x.same y = true ↔ x.units = y.units ∧ (x.negative = y.negative ∨ x.units = 0) := by
  unfold same toInt
  rw [beq_iff_eq]
  cases x.negative <;> cases y.negative <;> simp <;> omega

end Finite

/-! ### Whole numbers -/

namespace Double

theorem unit_pos : 0 < unit := by
  unfold unit
  exact pow_pos_two Format.binary64.scale

theorem holds_unit_mul {n : Nat} (hn : n < Nat.pow 2 Format.binary64.precision) :
    Format.binary64.Holds (n * unit) := by
  unfold unit
  exact Format.holds_of_short Format.binary64.scale hn (by decide)

/-- A natural number that is not too long has an exact double. -/
theorem ofInt_natCast {n : Nat} (hn : n < Nat.pow 2 Format.binary64.precision) :
    ofInt n = ⟨false, n * unit, holds_unit_mul hn⟩ := by
  have hsign : decide ((n : Int) < 0) = false := decide_eq_false (by omega)
  have hround := Format.round_of_holds (holds_unit_mul hn) Nat.one_pos
  rw [Nat.mul_one] at hround
  simp only [ofInt, ofRatio?, Int.natAbs_natCast, hsign, hround,
    Finite.of?_of_holds false (holds_unit_mul hn), Option.getD_some]

/-- A natural number that is not too long is worth as many units. -/
theorem toInt_ofInt {n : Nat} (hn : n < Nat.pow 2 Format.binary64.precision) :
    (ofInt n).toInt = n * unit := by
  rw [ofInt_natCast hn]
  exact Int.natCast_mul n unit

theorem short_of_lt {n : Nat} (hn : n < 4294967296) : n < Nat.pow 2 Format.binary64.precision :=
  Nat.lt_trans hn (by decide)

theorem word_short (w : UInt32) : w.toNat < Nat.pow 2 Format.binary64.precision :=
  short_of_lt w.toNat_lt

/-- A word is given back by its double. -/
theorem toWord_ofInt (w : UInt32) : (ofInt w.toNat).toWord = w := by
  have hw := w.toNat_lt
  rw [ofInt_natCast (word_short w)]
  unfold toWord
  simp only [Bool.false_eq_true, if_false, Nat.mul_div_cancel _ unit_pos]
  rw [Nat.min_eq_left (by omega), UInt32.ofNat_toNat]

/-- What is cut down to a word is the integer part, unless the number is too small or too large. -/
theorem toNat_toWord (x : Double) :
    (x.toWord.toNat : Int) = min (max x.toInt 0 / unit) 4294967295 := by
  unfold toWord Finite.toInt
  split
  · rw [Int.max_eq_right (by omega), Int.zero_ediv]
    rfl
  · have hmin : min (x.units / unit) 4294967295 < UInt32.size :=
      Nat.lt_of_le_of_lt (Nat.min_le_right _ _) (by decide)
    rw [UInt32.toNat_ofNat_of_lt' hmin, Int.max_eq_left (Int.natCast_nonneg _),
      ← Int.natCast_ediv]
    omega

/-- A number that is at most a whole number is no larger when it is cut down to a word. -/
theorem toNat_toWord_le {x : Double} {n : Nat} (hn : n < 4294967296)
    (h : x.toInt ≤ (ofInt n).toInt) : x.toWord.toNat ≤ n := by
  rw [toInt_ofInt (short_of_lt hn)] at h
  have hmost : max x.toInt 0 ≤ n * unit :=
    Int.max_le.mpr ⟨h, Int.mul_nonneg (Int.natCast_nonneg _) (Int.natCast_nonneg _)⟩
  have hdiv := Int.ediv_le_of_le_mul (Int.natCast_pos.mpr unit_pos) hmost
  have hword := toNat_toWord x
  omega

/-- A number that is at least a whole number is no smaller when it is cut down to a word. -/
theorem le_toNat_toWord {x : Double} {n : Nat} (hn : n < 4294967296)
    (h : (ofInt n).toInt ≤ x.toInt) : n ≤ x.toWord.toNat := by
  rw [toInt_ofInt (short_of_lt hn)] at h
  have hleast : n * unit ≤ max x.toInt 0 := Int.le_trans h (Int.le_max_left _ _)
  have hdiv := Int.le_ediv_of_mul_le (Int.natCast_pos.mpr unit_pos) hleast
  have hword := toNat_toWord x
  omega

/-- A whole number stays different from a word when it is cut down. -/
theorem toNat_toWord_ne {x : Double} {n : Nat} (hwhole : x.isWhole = true) (hpos : 0 < n)
    (hn : n < 4294967295) (h : x.toInt ≠ (ofInt n).toInt) : x.toWord.toNat ≠ n := by
  rintro rfl
  have hword := toNat_toWord x
  have hpart : max x.toInt 0 / unit = x.toWord.toNat := by omega
  have hsome : 0 < x.toInt := by
    refine Int.not_le.mp fun hle => ?_
    rw [Int.max_eq_right hle, Int.zero_ediv] at hpart
    omega
  rw [Int.max_eq_left (Int.le_of_lt hsome)] at hpart
  have hdvd : (unit : Int) ∣ x.toInt := by
    have hunits := Int.natCast_dvd_natCast.mpr (Nat.dvd_of_mod_eq_zero (beq_iff_eq.mp hwhole))
    unfold Finite.toInt
    split
    · exact Int.dvd_neg.mpr hunits
    · exact hunits
  refine h ?_
  rw [toInt_ofInt (word_short x.toWord), ← hpart, Int.ediv_mul_cancel hdvd]

end Double

/-! ### Widening -/

/-- A count that a format holds is a count with few digits before zeros, of which there are not
too many. -/
theorem Format.Holds.short {f : Format} {units : Nat} (h : f.Holds units)
    (hprecision : f.precision ≤ f.width) :
    ∃ n zeros, units = n * Nat.pow 2 zeros ∧ n < Nat.pow 2 f.precision ∧
      f.precision + zeros ≤ f.width := by
  obtain ⟨hwidth, hzeros⟩ := h
  by_cases hzero : units = 0
  · exact ⟨0, 0, by rw [hzero, Nat.zero_mul], pow_pos_two _, hprecision⟩
  have hpos : 0 < Nat.pow 2 (f.shift units) := pow_pos_two _
  refine ⟨units / Nat.pow 2 (f.shift units), f.shift units, ?_, ?_, ?_⟩
  · exact (Nat.div_mul_cancel (Nat.dvd_of_mod_eq_zero hzeros)).symm
  · have hlog : units < Nat.pow 2 (units.log2 + 1) := Nat.lt_log2_self
    have hdigits : Nat.pow 2 (units.log2 + 1) ≤ Nat.pow 2 (f.precision + f.shift units) := by
      refine Nat.pow_le_pow_right (by decide) ?_
      unfold shift
      omega
    have hproduct := Nat.pow_add 2 f.precision (f.shift units)
    rw [Nat.div_lt_iff_lt_mul hpos]
    exact Nat.lt_of_lt_of_le hlog (Nat.le_trans hdigits (Nat.le_of_eq hproduct))
  · have hlog : units.log2 < f.width := (Nat.log2_lt hzero).mpr hwidth
    unfold shift
    omega

namespace Single

/-- Every finite single can be widened. -/
theorem isSome_toDouble? (x : Finite .binary32) : (finite x).toDouble?.isSome = true := by
  obtain ⟨n, zeros, hunits, hn, hwidth⟩ := x.holds.short (by decide)
  let more := Format.binary64.scale - Format.binary32.scale
  have hproduct : x.units * Nat.pow 2 more = n * Nat.pow 2 (zeros + more) := by
    have hadd := Nat.pow_add 2 zeros more
    rw [hunits, Nat.mul_assoc]
    exact congrArg (n * ·) hadd.symm
  have hholds : Format.binary64.Holds (x.units * Nat.pow 2 more) := by
    rw [hproduct]
    refine Format.holds_of_short (zeros + more) (Nat.lt_trans hn (by decide)) ?_
    simp only [Format.binary32, Format.binary64, more] at hwidth ⊢
    omega
  show (Finite.of? x.negative (x.units * Nat.pow 2 more)).isSome = true
  rw [Finite.of?_of_holds x.negative hholds]
  rfl

/-- A single is given back by its double, except for the sign of a zero. -/
theorem ofDouble_of_widened {y : Single} {wide x : Double} (hwide : y.toDouble? = some wide)
    (hx : x.same wide = true) : (y == ofDouble x) = true := by
  cases y with
  | infinite negative => cases hwide
  | nan => cases hwide
  | finite y =>
      simp only [toDouble?] at hwide
      obtain ⟨hsign, hunits⟩ := Finite.of?_eq_some hwide
      obtain ⟨hmagnitude, hnegative⟩ := Finite.same_iff.mp hx
      have hscaled : x.units * Nat.pow 2 Format.binary32.scale = y.units * Double.unit := by
        unfold Double.unit
        rw [hmagnitude, hunits, Nat.mul_assoc, pow_sub_mul_pow_two (by decide)]
      have hround : Format.binary32.round (x.units * Nat.pow 2 Format.binary32.scale)
          Double.unit = y.units := by
        rw [hscaled]
        exact Format.round_of_holds y.holds Double.unit_pos
      have hzero : x.units = 0 → y.units = 0 := by
        intro h
        rw [hmagnitude, hunits] at h
        exact (Nat.mul_eq_zero.mp h).resolve_right (Nat.ne_of_gt (pow_pos_two _))
      unfold ofDouble ofRatio
      rw [hround]
      unfold ofUnits
      rw [Finite.of?_of_holds _ y.holds]
      exact Finite.same_iff.mpr ⟨rfl, hnegative.imp (fun h => (h.trans hsign).symm) hzero⟩

end Single

end DeviceConfig
