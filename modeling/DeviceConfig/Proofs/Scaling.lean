/-
Scaling by powers of ten.

The value of a numeral comes about by rounding its significand to a double, rounding a power of ten
to another, and rounding their product or quotient.  What is lost on the way is a matter of the last
bits, except at the upper end of the format, where it decides whether there is a result at all.  A
quotient is no problem, since it is never larger than what is divided.  A product can be too large
although the numeral itself is not.

So there is a margin: `Numeral.limit`, which is the upper end of what rounds to the second largest
double.  Rounding is monotone, so for each power of ten it is enough to look at the greatest
significand that the margin leaves.
-/
import DeviceConfig.Json.Numeral
import DeviceConfig.Proofs.Values

namespace DeviceConfig

/-! ### Powers -/

theorem pow_two_le {m n : Nat} (h : m ≤ n) : Nat.pow 2 m ≤ Nat.pow 2 n :=
  Nat.pow_le_pow_right (by decide) h

theorem pow_two_mul (m n : Nat) : Nat.pow 2 m * Nat.pow 2 n = Nat.pow 2 (m + n) :=
  (Nat.pow_add 2 m n).symm

theorem two_mul_pow_two (n : Nat) : 2 * Nat.pow 2 n = Nat.pow 2 (n + 1) := Nat.mul_comm 2 _

theorem pow_ten_le {m n : Nat} (h : m ≤ n) : Nat.pow 10 m ≤ Nat.pow 10 n :=
  Nat.pow_le_pow_right (by decide) h

theorem pow_ten_mul (m n : Nat) : Nat.pow 10 m * Nat.pow 10 n = Nat.pow 10 (m + n) :=
  (Nat.pow_add 10 m n).symm

/-! ### Rounding is monotone -/

theorem divEven_of_lt {num den : Nat} (h : 2 * (num % den) < den) :
    divEven num den = num / den := by
  unfold divEven
  exact if_pos h

theorem divEven_of_gt {num den : Nat} (h : den < 2 * (num % den)) :
    divEven num den = num / den + 1 := by
  unfold divEven
  simp only
  rw [if_neg (Nat.lt_asymm h), if_pos h]

theorem divEven_mono {num more den : Nat} (h : num ≤ more) :
    divEven num den ≤ divEven more den := by
  have hquotient : num / den ≤ more / den := Nat.div_le_div_right h
  have hlow := divEven_bounds num den
  have hhigh := divEven_bounds more den
  rcases Nat.lt_or_eq_of_le hquotient with hlt | heq
  · omega
  -- With the same quotient, what is left over decides.
  have hnum := Nat.div_add_mod num den
  have hmore := Nat.div_add_mod more den
  rw [heq] at hnum
  have hrest : num % den ≤ more % den := by omega
  rcases Nat.lt_or_eq_of_le hrest with hlt | hsame
  · by_cases hbelow : 2 * (num % den) < den
    · rw [divEven_of_lt hbelow, heq]
      exact hhigh.1
    · rw [divEven_of_gt (show den < 2 * (more % den) by omega), ← heq]
      exact hlow.2
  · have hequal : num = more := by omega
    rw [hequal]

/-- A ratio that is more than a half below a whole number is rounded to less than that. -/
theorem divEven_lt {num den n : Nat} (h : 2 * num < (2 * n - 1) * den) : divEven num den < n := by
  obtain ⟨m, rfl⟩ : ∃ m, n = m + 1 := by
    refine ⟨n - 1, ?_⟩
    rcases Nat.eq_zero_or_pos n with rfl | hpos
    · rw [Nat.mul_zero, Nat.zero_sub, Nat.zero_mul] at h
      exact absurd h (Nat.not_lt_zero _)
    · omega
  have hsplit := Nat.div_add_mod num den
  have hproduct : (2 * (m + 1) - 1) * den = 2 * (den * m) + den := by
    rw [show 2 * (m + 1) - 1 = 2 * m + 1 by omega, Nat.add_mul, Nat.one_mul, Nat.mul_assoc,
      Nat.mul_comm m den]
  have hbounds := (divEven_bounds num den).2
  have hquotient : num / den < m + 1 := by
    refine Nat.div_lt_of_lt_mul ?_
    rw [Nat.mul_add_one]
    omega
  rcases Nat.lt_or_eq_of_le (Nat.le_of_lt_succ hquotient) with hlt | heq
  · omega
  · rw [divEven_of_lt (by rw [heq] at hsplit; omega), heq]
    exact Nat.lt_succ_self m

namespace Format

variable {f : Format}

theorem shift_le_log2 (hf : 0 < f.precision) (units : Nat) : f.shift units ≤ units.log2 := by
  unfold shift
  omega

theorem log2_mono {units more : Nat} (h : units ≤ more) : units.log2 ≤ more.log2 := by
  by_cases hzero : units = 0
  · rw [hzero]
    exact Nat.zero_le _
  · rw [Nat.le_log2 (by omega)]
    exact Nat.le_trans (Nat.log2_self_le hzero) h

/-- What a ratio is rounded to is not below the power of two that it starts with. -/
theorem le_round (hf : 0 < f.precision) {num den : Nat} (h : num / den ≠ 0) :
    Nat.pow 2 (num / den).log2 ≤ f.round num den := by
  have hshift := shift_le_log2 hf (num / den)
  have hbounds := divEven_bounds num (den * Nat.pow 2 (f.shift (num / den)))
  rw [← Nat.div_div_eq_div_mul] at hbounds
  have hlow : Nat.pow 2 ((num / den).log2 - f.shift (num / den)) ≤
      num / den / Nat.pow 2 (f.shift (num / den)) := by
    rw [Nat.le_div_iff_mul_le (pow_pos_two _), pow_sub_mul_pow_two hshift]
    exact Nat.log2_self_le h
  rw [← pow_sub_mul_pow_two hshift]
  exact Nat.mul_le_mul_right _ (Nat.le_trans hlow hbounds.1)

/-- Nor is it above the next one. -/
theorem round_le (hf : 0 < f.precision) (num den : Nat) :
    f.round num den ≤ Nat.pow 2 ((num / den).log2 + 1) := by
  have hshift := Nat.le_succ_of_le (shift_le_log2 hf (num / den))
  have hbounds := divEven_bounds num (den * Nat.pow 2 (f.shift (num / den)))
  rw [← Nat.div_div_eq_div_mul] at hbounds
  have hhigh : num / den / Nat.pow 2 (f.shift (num / den)) + 1 ≤
      Nat.pow 2 ((num / den).log2 + 1 - f.shift (num / den)) := by
    refine (Nat.div_lt_iff_lt_mul (pow_pos_two _)).mpr ?_
    rw [pow_sub_mul_pow_two hshift]
    exact Nat.lt_log2_self
  rw [← pow_sub_mul_pow_two hshift]
  exact Nat.mul_le_mul_right _ (Nat.le_trans hbounds.2 hhigh)

/-- **Rounding is monotone.** -/
theorem round_mono (hf : 0 < f.precision) {num more : Nat} (den : Nat) (h : num ≤ more) :
    f.round num den ≤ f.round more den := by
  have hquotient : num / den ≤ more / den := Nat.div_le_div_right h
  rcases Nat.lt_or_eq_of_le (log2_mono hquotient) with hlt | heq
  · -- A power of two stands between the two ratios.
    have hmore : more / den ≠ 0 := by
      intro hzero
      rw [hzero] at hlt
      exact Nat.not_lt_zero _ hlt
    calc f.round num den
      _ ≤ Nat.pow 2 ((num / den).log2 + 1) := round_le hf num den
      _ ≤ Nat.pow 2 (more / den).log2 := pow_two_le hlt
      _ ≤ f.round more den := le_round hf hmore
  · have hstep : f.shift (num / den) = f.shift (more / den) := by
      unfold shift
      rw [heq]
    unfold round
    rw [hstep]
    exact Nat.mul_le_mul_right _ (divEven_mono h)

/-! ### What is not too large -/

/-- Twice the least ratio that is too large for a format.  It lies half a gap beyond the greatest
magnitude. -/
def twiceEdge (f : Format) : Nat :=
  (Nat.pow 2 (f.precision + 1) - 1) * Nat.pow 2 (f.width - f.precision)

theorem twiceEdge_le (hwidth : f.precision < f.width) : f.twiceEdge ≤ 2 * Nat.pow 2 f.width := by
  have hpower : 2 * Nat.pow 2 f.width =
      Nat.pow 2 (f.precision + 1) * Nat.pow 2 (f.width - f.precision) := by
    rw [pow_two_mul, two_mul_pow_two]
    congr 1
    omega
  rw [twiceEdge, hpower]
  exact Nat.mul_le_mul_right _ (Nat.sub_le _ _)

/-- The digits that are kept of a ratio are as many as there is room for, or they are rounded up to
the next power of two. -/
theorem divEven_shift_le (f : Format) (num den : Nat) :
    divEven num (den * Nat.pow 2 (f.shift (num / den))) ≤ Nat.pow 2 f.precision := by
  refine Nat.le_trans (divEven_bounds _ _).2 ?_
  rw [← Nat.div_div_eq_div_mul]
  refine (Nat.div_lt_iff_lt_mul (pow_pos_two _)).mpr ?_
  rw [pow_two_mul]
  refine Nat.lt_of_lt_of_le Nat.lt_log2_self (pow_two_le ?_)
  unfold shift
  omega

/-- A ratio that is not too large does not use up more digits than there are. -/
theorem shift_le_of_lt (hwidth : f.precision < f.width) {num den : Nat}
    (h : 2 * num < f.twiceEdge * den) : f.precision + f.shift (num / den) ≤ f.width := by
  have hquotient : num / den < Nat.pow 2 f.width := by
    refine Nat.div_lt_of_lt_mul (Nat.lt_of_mul_lt_mul_left (a := 2) (Nat.lt_of_lt_of_le h ?_))
    rw [Nat.mul_comm den, ← Nat.mul_assoc]
    exact Nat.mul_le_mul_right den (twiceEdge_le hwidth)
  by_cases hzero : num / den = 0
  · rw [hzero]
    show f.precision + (Nat.log2 0 + 1 - f.precision) ≤ f.width
    rw [Nat.log2_zero]
    omega
  · have hlog := (Nat.log2_lt hzero).mpr hquotient
    unfold shift
    omega

/-- What a ratio is rounded to is held, unless it is too large. -/
theorem holds_round (hf : 0 < f.precision) (hwidth : f.precision < f.width) {num den : Nat}
    (h : 2 * num < f.twiceEdge * den) : f.Holds (f.round num den) := by
  have hmost := f.divEven_shift_le num den
  have hshift := shift_le_of_lt hwidth h
  rcases Nat.lt_or_eq_of_le hshift with hroom | hfull
  · rcases Nat.lt_or_eq_of_le hmost with hlt | heq
    · exact holds_of_short _ hlt hshift
    · -- The next power of two has as few digits, and there is still room for it.
      have hpower : Nat.pow 2 f.precision * Nat.pow 2 (f.shift (num / den)) =
          Nat.pow 2 (f.precision - 1) * Nat.pow 2 (f.shift (num / den) + 1) := by
        rw [pow_two_mul, pow_two_mul]
        congr 1
        omega
      rw [round, heq, hpower]
      exact holds_of_short _ (Nat.pow_lt_pow_right (by decide) (by omega)) (by omega)
  · refine holds_of_short _ (divEven_lt ?_) hshift
    rw [two_mul_pow_two, Nat.mul_comm den, ← Nat.mul_assoc]
    rwa [twiceEdge, ← hfull, Nat.add_sub_cancel_left] at h

/-- A magnitude that a format holds is not too large. -/
theorem Holds.lt_edge {units : Nat} (h : f.Holds units) (hwidth : f.precision ≤ f.width) :
    2 * units < f.twiceEdge := by
  obtain ⟨n, zeros, rfl, hn, hzeros⟩ := h.short hwidth
  have hpos := pow_pos_two (f.width - f.precision)
  have hfew : 2 * n < Nat.pow 2 (f.precision + 1) - 1 := by
    have hdouble := two_mul_pow_two f.precision
    omega
  calc 2 * (n * Nat.pow 2 zeros)
    _ = 2 * n * Nat.pow 2 zeros := (Nat.mul_assoc _ _ _).symm
    _ ≤ 2 * n * Nat.pow 2 (f.width - f.precision) :=
        Nat.mul_le_mul_left _ (pow_two_le (by omega))
    _ < f.twiceEdge := Nat.mul_lt_mul_of_pos_right hfew hpos

end Format

/-! ### Scaling -/

namespace Double

/-- A natural number that is not too large is rounded like any ratio. -/
theorem units_ofInt {n most : Nat} (hle : n ≤ most)
    (hmost : 2 * (most * unit) < Format.binary64.twiceEdge) :
    (ofInt n).units = Format.binary64.round (n * unit) 1 := by
  have hn : 2 * (n * unit) < Format.binary64.twiceEdge :=
    Nat.lt_of_le_of_lt (Nat.mul_le_mul_left 2 (Nat.mul_le_mul_right unit hle)) hmost
  have hholds : Format.binary64.Holds (Format.binary64.round (n * unit) 1) :=
    Format.holds_round (by decide) (by decide) (by rwa [Nat.mul_one])
  simp only [ofInt, ofRatio?, Int.natAbs_natCast, Finite.of?_of_holds _ hholds, Option.getD_some]

/-- The powers of ten that have doubles. -/
theorem units_powerOfTen {places : Nat} (h : places ≤ 308) :
    (powerOfTen places).units = Format.binary64.round (Nat.pow 10 places * unit) 1 :=
  units_ofInt (pow_ten_le h) (by decide +kernel)

/-- They are not below one. -/
theorem unit_le_powerOfTen {places : Nat} (h : places ≤ 308) :
    unit ≤ (powerOfTen places).units := by
  have hone : Format.binary64.round (1 * unit) 1 = 1 * unit := by
    have hholds := Format.round_of_holds (holds_unit_mul (n := 1) (by decide)) Nat.one_pos
    rwa [Nat.mul_one] at hholds
  have hpower : 1 ≤ Nat.pow 10 places := Nat.pow_pos (by decide)
  have hmono := Format.round_mono (f := .binary64) (by decide) 1 (Nat.mul_le_mul_right unit hpower)
  rw [hone, Nat.one_mul] at hmono
  rwa [units_powerOfTen h]

theorem isSome_of?_round (negative : Bool) {num den : Nat}
    (h : 2 * num < Format.binary64.twiceEdge * den) :
    ((Finite.of? negative (Format.binary64.round num den) : Option Double)).isSome = true := by
  rw [Finite.of?_of_holds _ (Format.holds_round (by decide) (by decide) h)]
  rfl

/-- A quotient by one or more is not too large. -/
theorem isSome_div? (x : Double) {y : Double} (h : unit ≤ y.units) :
    (x.div? y).isSome = true := by
  have hzero : y.units ≠ 0 := Nat.ne_of_gt (Nat.lt_of_lt_of_le unit_pos h)
  rw [div?, if_neg hzero]
  refine isSome_of?_round _ ?_
  have hx := x.holds.lt_edge (by decide)
  calc 2 * (x.units * unit)
    _ = 2 * x.units * unit := (Nat.mul_assoc _ _ _).symm
    _ ≤ 2 * x.units * y.units := Nat.mul_le_mul_left _ h
    _ < Format.binary64.twiceEdge * y.units :=
        Nat.mul_lt_mul_of_pos_right hx (Nat.pos_of_ne_zero hzero)

end Double

namespace Numeral

/-- A number can be divided by any power of ten. -/
theorem isSome_scaleDown (fuel : Nat) : ∀ (x : Double) (places : Nat), places / 308 < fuel →
    (scaleDown x places fuel).isSome = true := by
  induction fuel with
  | zero => exact fun _ _ h => absurd h (Nat.not_lt_zero _)
  | succ fuel ih =>
      intro x places h
      rw [scaleDown]
      split
      next hsmall => exact Double.isSome_div? x (Double.unit_le_powerOfTen hsmall)
      next hlarge =>
        split
        · rfl
        · obtain ⟨y, hy⟩ := Option.isSome_iff_exists.mp
            (Double.isSome_div? x (Double.unit_le_powerOfTen (Nat.le_refl 308)))
          rw [hy, Option.bind_some]
          exact ih y (places - 308) (by omega)

/-- The greatest ratio, in units, up to which every numeral is read. -/
def limit : Nat := (Nat.pow 2 54 - 3) * Nat.pow 2 2044

theorem within_mono {significand most power least : Nat} (hsignificand : significand ≤ most)
    (hpower : power ≤ least) (h : most * (least * Double.unit) ≤ limit) :
    significand * (power * Double.unit) ≤ limit :=
  Nat.le_trans (Nat.mul_le_mul hsignificand (Nat.mul_le_mul_right _ hpower)) h

/-- The product of a significand and a power is not too large once both are rounded. -/
def Fits (significand power : Nat) : Prop :=
  2 * (Format.binary64.round (significand * Double.unit) 1 *
    Format.binary64.round (power * Double.unit) 1) < Format.binary64.twiceEdge * Double.unit

instance (significand power : Nat) : Decidable (Fits significand power) :=
  inferInstanceAs (Decidable (_ < _))

theorem Fits.mono {significand most power greatest : Nat} (hsignificand : significand ≤ most)
    (hpower : power ≤ greatest) (h : Fits most greatest) : Fits significand power := by
  refine Nat.lt_of_le_of_lt (Nat.mul_le_mul_left 2 (Nat.mul_le_mul ?_ ?_)) h
  · exact Format.round_mono (by decide) 1 (Nat.mul_le_mul_right _ hsignificand)
  · exact Format.round_mono (by decide) 1 (Nat.mul_le_mul_right _ hpower)

/-- As rounding is monotone, the greatest significand within the limit decides for each power, and
where that does not fit 64 bits, the greatest that does. -/
theorem fits_of_within {significand exponent : Nat} (hexponent : exponent ≤ 308)
    (hsize : significand < UInt64.size)
    (h : significand * (Nat.pow 10 exponent * Double.unit) ≤ limit) :
    Fits significand (Nat.pow 10 exponent) := by
  by_cases hsmall : exponent ≤ 288
  · exact Fits.mono (Nat.le_sub_one_of_lt hsize) (pow_ten_le hsmall) (by decide +kernel)
  · have hall : ∀ n < 309, 289 ≤ n →
        Fits (limit / (Nat.pow 10 n * Double.unit)) (Nat.pow 10 n) := by decide +kernel
    have hpos : 0 < Nat.pow 10 exponent * Double.unit :=
      Nat.mul_pos (Nat.pow_pos (by decide)) Double.unit_pos
    exact Fits.mono ((Nat.le_div_iff_mul_le hpos).mpr h) (Nat.le_refl _)
      (hall exponent (by omega) (by omega))

/-- A significand that fits can be scaled by a negative power of ten, and by a positive one within
the limit. -/
theorem isSome_scale {significand : Nat} (hsize : significand < UInt64.size) {exponent : Int}
    (h : 0 < exponent → significand * (Nat.pow 10 exponent.toNat * Double.unit) ≤ limit) :
    (scale (Double.ofInt significand) exponent).isSome = true := by
  unfold scale
  split
  next hnegative => exact isSome_scaleDown _ _ _ (Nat.lt_succ_self _)
  next hsign =>
    have hwithin : significand * (Nat.pow 10 exponent.natAbs * Double.unit) ≤ limit := by
      by_cases hpositive : 0 < exponent
      · rw [show exponent.natAbs = exponent.toNat by omega]
        exact h hpositive
      · rw [show exponent.natAbs = 0 by omega]
        exact within_mono (Nat.le_of_lt hsize) (Nat.le_refl _) (by decide +kernel)
    split
    next hsmall =>
      have hplaces : exponent.natAbs ≤ 308 := by omega
      refine Double.isSome_of?_round _ ?_
      rw [Double.units_ofInt (Nat.le_of_lt hsize) (by decide +kernel),
        Double.units_powerOfTen hplaces]
      exact fits_of_within hplaces hsize hwithin
    next hlarge =>
      -- Only zero is left within the limit.
      have hzero : significand = 0 := by
        refine Classical.byContradiction fun hsome => ?_
        have hlarge : 309 ≤ exponent.natAbs := by omega
        have hpower := pow_ten_le hlarge
        have hone := within_mono (Nat.pos_of_ne_zero hsome) hpower hwithin
        exact absurd hone (by decide +kernel)
      have hunits : (Double.ofInt significand).units = 0 := by
        rw [hzero]
        decide +kernel
      rw [if_pos hunits]
      rfl

end Numeral

end DeviceConfig
