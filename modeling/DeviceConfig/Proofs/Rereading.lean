/-
What has been written can be read.

The text of a value is always a text of a value: no number that is written down exceeds what the
reader can make of it.  For a whole number this is plain.  A double is written in its shortest
digits, which lie among the reals that round to it.  So the digits of every double but the greatest
stay within the limit up to which significands can be scaled, and for the greatest its own digits
are looked at.

Only the last digits of doubles may change on the way.  Whatever is found under a path comes back
under the same path.
-/
import DeviceConfig.Proofs.Paths
import DeviceConfig.Proofs.Reading
import DeviceConfig.Proofs.Scaling

namespace DeviceConfig

namespace Numeral

/-! ### Digits -/

/-- A number with more digits after it. -/
def extend (n : Nat) (digits : List Char) : Nat :=
  digits.foldl (fun n c => 10 * n + digitValue c) n

theorem extend_append (n : Nat) (digits more : List Char) :
    extend n (digits ++ more) = extend (extend n digits) more := List.foldl_append

/-- Each digit makes a number at least ten times as large. -/
theorem le_extend (digits : List Char) :
    ∀ n, n * Nat.pow 10 digits.length ≤ extend n digits := by
  induction digits with
  | nil => exact fun n => Nat.le_of_eq (Nat.mul_one n)
  | cons c digits ih =>
      intro n
      calc n * Nat.pow 10 (digits.length + 1)
        _ = 10 * n * Nat.pow 10 digits.length := by
            rw [← pow_ten_mul, Nat.mul_comm 10, Nat.mul_assoc, Nat.mul_comm (Nat.pow 10 1)]
        _ ≤ (10 * n + digitValue c) * Nat.pow 10 digits.length :=
            Nat.mul_le_mul_right _ (Nat.le_add_right _ _)
        _ ≤ extend n (c :: digits) := ih _

/-- What is absorbed fits, and with a zero for each digit that is left over it is not more than what
is spelled. -/
theorem absorb_bounds (digits : List Char) : ∀ {significand : Nat}, significand < UInt64.size →
    (absorb significand digits).1 < UInt64.size ∧
      (absorb significand digits).1 * Nat.pow 10 (absorb significand digits).2.length ≤
        extend significand digits ∧
      (absorb significand digits).2.length ≤ digits.length := by
  induction digits with
  | nil =>
      intro significand hsize
      exact ⟨hsize, Nat.le_of_eq (Nat.mul_one _), Nat.le_refl _⟩
  | cons c digits ih =>
      intro significand hsize
      rw [absorb]
      split
      next hnext =>
        obtain ⟨hsize, hle, hlength⟩ := ih hnext
        exact ⟨hsize, hle, Nat.le_succ_of_le hlength⟩
      next hnext => exact ⟨hsize, le_extend (c :: digits) significand, Nat.le_refl _⟩

/-- Digits are all absorbed as long as what they spell fits. -/
theorem absorb_of_fits (digits : List Char) : ∀ {significand : Nat},
    extend significand digits < UInt64.size →
      absorb significand digits = (extend significand digits, []) := by
  induction digits with
  | nil => exact fun _ => rfl
  | cons c digits ih =>
      intro significand hsize
      have hle := le_extend digits (10 * significand + digitValue c)
      have hnext : 10 * significand + digitValue c < UInt64.size := by
        refine Nat.lt_of_le_of_lt (Nat.le_trans ?_ hle) hsize
        exact Nat.le_mul_of_pos_right _ (Nat.pow_pos (by decide))
      rw [absorb, if_pos hnext]
      exact ih hsize

theorem digitValue_le {c : Char} (h : c.isDigit = true) : digitValue c ≤ 9 := by
  obtain ⟨-, hnine⟩ := Char.isDigit_iff_toNat.mp h
  have hbounds : '0'.toNat = 48 ∧ '9'.toNat = 57 := by decide
  unfold digitValue
  omega

/-- A number does not reach the next one by the digits after it. -/
theorem extend_lt {digits : List Char} (h : ∀ c ∈ digits, c.isDigit = true) :
    ∀ n, extend n digits < (n + 1) * Nat.pow 10 digits.length := by
  induction digits with
  | nil =>
      intro n
      exact Nat.lt_of_lt_of_eq (Nat.lt_succ_self n) (Nat.mul_one (n + 1)).symm
  | cons c digits ih =>
      intro n
      obtain ⟨hc, hdigits⟩ := List.forall_mem_cons.mp h
      have hdigit := digitValue_le hc
      calc extend n (c :: digits)
        _ < (10 * n + digitValue c + 1) * Nat.pow 10 digits.length := ih hdigits _
        _ ≤ 10 * (n + 1) * Nat.pow 10 digits.length := Nat.mul_le_mul_right _ (by omega)
        _ = (n + 1) * Nat.pow 10 (digits.length + 1) := by
            rw [← pow_ten_mul, Nat.mul_comm 10, Nat.mul_assoc, Nat.mul_comm (Nat.pow 10 1)]

/-! ### Numerals -/

/-- The digits after a significand that fits can be read if they stay within the limit with the
power of ten that follows them. -/
theorem isSome_decimals (negative : Bool) {significand : Nat} (hsize : significand < UInt64.size)
    (decimals : List Char) (power : Int)
    (h : 0 < power → extend significand decimals * (Nat.pow 10 power.toNat * Double.unit) ≤
      limit * Nat.pow 10 decimals.length) :
    (double? negative (absorb significand decimals).1
      (0 - (decimals.length - (absorb significand decimals).2.length : Nat) + power)).isSome =
        true := by
  obtain ⟨hfits, hle, hlength⟩ := absorb_bounds decimals hsize
  generalize (absorb significand decimals).1 = absorbed at hfits hle ⊢
  generalize (absorb significand decimals).2.length = ignored at hle hlength ⊢
  rw [double?, Option.isSome_map]
  refine isSome_scale hfits fun hplaces => ?_
  have hwithin := h (by omega)
  -- The unit is too large a number to be computed, so it goes by a name here.
  generalize Double.unit = unit at hwithin ⊢
  -- The digits left over count as zeros, and so does each place behind the point.
  have hplaces : (0 - (decimals.length - ignored : Nat) + power).toNat + decimals.length =
      ignored + power.toNat := by omega
  have hpos : 0 < Nat.pow 10 decimals.length := Nat.pow_pos (by decide)
  refine Nat.le_of_mul_le_mul_right ?_ hpos
  calc absorbed * (Nat.pow 10 (0 - (decimals.length - ignored : Nat) + power).toNat *
        unit) * Nat.pow 10 decimals.length
    _ = absorbed * (Nat.pow 10 (0 - (decimals.length - ignored : Nat) + power).toNat *
        Nat.pow 10 decimals.length) * unit := by ac_rfl
    _ = absorbed * (Nat.pow 10 ignored * Nat.pow 10 power.toNat) * unit := by
        rw [pow_ten_mul, hplaces, pow_ten_mul]
    _ = absorbed * Nat.pow 10 ignored * (Nat.pow 10 power.toNat * unit) := by ac_rfl
    _ ≤ extend significand decimals * (Nat.pow 10 power.toNat * unit) :=
        Nat.mul_le_mul_right _ hle
    _ ≤ limit * Nat.pow 10 decimals.length := hwithin

/-- The number that the digits of a numeral spell, without the point. -/
def coefficient (n : Numeral) : Nat := extend 0 (n.whole ++ n.fraction.getD [])

/-- The power of ten that a numeral says. -/
def power (n : Numeral) : Int := (n.exponent.map Exponent.value).getD 0

/-- **A numeral within the limit is read.**  It must not have too many digits in front of the
point; behind it there may be any number of them. -/
theorem isSome_value? {n : Numeral} (hwhole : extend 0 n.whole < UInt64.size)
    (h : 0 < n.power → n.coefficient * (Nat.pow 10 n.power.toNat * Double.unit) ≤
      limit * Nat.pow 10 (n.fraction.getD []).length) : n.value?.isSome = true := by
  obtain ⟨negative, whole, fraction, exponent⟩ := n
  have hdecimals := isSome_decimals negative hwhole (fraction.getD [])
    ((exponent.map Exponent.value).getD 0)
  unfold coefficient at h
  rw [extend_append] at h
  unfold value?
  rw [absorb_of_fits whole hwhole]
  cases fraction with
  | none =>
    cases exponent with
    | none => rfl
    | some e => exact hdecimals h
  | some decimals => exact hdecimals h

end Numeral

/-! ### The digits of a double -/

/-- Numbers of the same magnitude differ in their signs at most. -/
theorem Finite.eq_or_eq_neg {f : Format} {x y : Finite f} (h : x.units = y.units) :
    x = y ∨ x = y.neg := by
  obtain ⟨a, m, hm⟩ := x
  obtain ⟨b, n, hn⟩ := y
  obtain rfl : m = n := h
  cases a <;> cases b <;> simp [neg]

namespace Decimal

open Numeral (extend extend_append extend_lt limit)

theorem extend_zeros (n count : Nat) : extend n (zeros count) = n * Nat.pow 10 count := by
  induction count generalizing n with
  | zero => exact (Nat.mul_one n).symm
  | succ count ih =>
      have hzero : 10 * n + digitValue '0' = n * Nat.pow 10 1 := Nat.mul_comm 10 n
      show extend (10 * n + digitValue '0') (zeros count) = _
      rw [ih, hzero, Nat.mul_assoc, pow_ten_mul, Nat.add_comm 1]

theorem extend_toDigits (n : Nat) : extend 0 (Nat.toDigits 10 n) = n := by
  induction n using Nat.strongRecOn with
  | _ n ih =>
    have hdigit : ∀ m < 10, digitValue m.digitChar = m :=
      fun m hm => Numeral.digitValue_digitChar hm
    by_cases hsmall : n < 10
    · rw [Nat.toDigits_of_lt_base hsmall]
      show 10 * 0 + digitValue n.digitChar = n
      rw [hdigit n hsmall]
      omega
    · rw [Nat.toDigits_of_base_le (by decide) (by omega), extend_append, ih (n / 10) (by omega)]
      show 10 * (n / 10) + digitValue (n % 10).digitChar = n
      rw [hdigit (n % 10) (by omega)]
      omega

/-- A decimal lies among the reals that round to a magnitude. -/
def RoundsTo (d : Decimal) (units : Nat) : Prop :=
  (Format.binary64.basin units).contains
    (4 * Double.unit * d.coefficient * Nat.pow 10 d.exponent.toNat)
    (Nat.pow 10 (-d.exponent).toNat) = true

theorem roundsTo_atPlace? {units : Nat} {exponent : Int} {d : Decimal}
    (hd : atPlace? units exponent = some d) : d.RoundsTo units := by
  unfold atPlace? at hd
  unfold RoundsTo
  -- The unit is too large a number to be computed, so it goes by a name here.
  generalize Double.unit = unit at hd ⊢
  obtain ⟨c, hc, rfl⟩ := Option.map_eq_some_iff.mp hd
  have hcontains := List.find?_some hc
  exact hcontains

/-- The shortest decimal of a magnitude rounds to it, if there is one at all. -/
theorem roundsTo_shortest (units : Nat) :
    (shortest units).RoundsTo units ∨ shortest units = ⟨0, 0⟩ :=
  (atPlace?_shortest units).imp_left fun ⟨_, hfound⟩ => roundsTo_atPlace? hfound

/-- The greatest double. -/
def greatest : Double := ⟨false, (Nat.pow 2 53 - 1) * Nat.pow 2 2045, by decide +kernel⟩

/-- What rounds to any other double stays within the limit. -/
theorem high_basin_le {units : Nat} (hpos : units ≠ 0) (hholds : Format.binary64.Holds units)
    (h : units ≠ greatest.units) : (Format.binary64.basin units).high ≤ 4 * limit := by
  obtain ⟨n, places, rfl, hn, hplaces⟩ := hholds.short (by decide)
  have hgap := pow_two_le (Format.shift_of_short places hn hpos)
  have hn : n < Nat.pow 2 53 := hn
  have hplaces : 53 + places ≤ 2098 := hplaces
  have hhigh : (Format.binary64.basin (n * Nat.pow 2 places)).high ≤
      (4 * n + 2) * Nat.pow 2 places := by
    show 4 * (n * Nat.pow 2 places) +
      2 * Nat.pow 2 (Format.binary64.shift (n * Nat.pow 2 places)) ≤ _
    rw [Nat.add_mul, Nat.mul_assoc]
    omega
  refine Nat.le_trans hhigh ?_
  have hpower : Nat.pow 2 55 = 4 * Nat.pow 2 53 := by decide
  by_cases hbelow : places ≤ 2044
  · have hfactor : 4 * n + 2 ≤ Nat.pow 2 55 - 2 := by omega
    exact Nat.le_trans (Nat.mul_le_mul hfactor (pow_two_le hbelow)) (by decide +kernel)
  · obtain rfl : places = 2045 := by omega
    have hother : n ≠ Nat.pow 2 53 - 1 := by
      rintro rfl
      exact h (by decide +kernel)
    have hfactor : 4 * n + 2 ≤ Nat.pow 2 55 - 6 := by omega
    exact Nat.le_trans (Nat.mul_le_mul_right _ hfactor) (by decide +kernel)

theorem within_of_roundsTo {d : Decimal} {units : Nat} (h : d.RoundsTo units)
    (hhigh : (Format.binary64.basin units).high ≤ 4 * limit) :
    d.coefficient * (Nat.pow 10 d.exponent.toNat * Double.unit) ≤
      limit * Nat.pow 10 (-d.exponent).toNat := by
  have hmost : 4 * Double.unit * d.coefficient * Nat.pow 10 d.exponent.toNat ≤
      (Format.binary64.basin units).high * Nat.pow 10 (-d.exponent).toNat := by
    unfold RoundsTo Basin.contains at h
    split at h
    · rw [Bool.and_eq_true, decide_eq_true_iff, decide_eq_true_iff] at h
      exact h.2
    · rw [Bool.and_eq_true, decide_eq_true_iff, decide_eq_true_iff] at h
      exact Nat.le_of_lt h.2
  generalize Double.unit = unit at hmost ⊢
  refine Nat.le_of_mul_le_mul_left ?_ (show 0 < 4 by decide)
  calc 4 * (d.coefficient * (Nat.pow 10 d.exponent.toNat * unit))
    _ = 4 * unit * d.coefficient * Nat.pow 10 d.exponent.toNat := by ac_rfl
    _ ≤ (Format.binary64.basin units).high * Nat.pow 10 (-d.exponent).toNat := hmost
    _ ≤ 4 * limit * Nat.pow 10 (-d.exponent).toNat := Nat.mul_le_mul_right _ hhigh
    _ = 4 * (limit * Nat.pow 10 (-d.exponent).toNat) := Nat.mul_assoc _ _ _

/-- Only zeros are missing at the end of the significant digits, and they count as such. -/
theorem extend_significant (coefficient : Nat) :
    ∃ count, (Nat.toDigits 10 coefficient).length = (significant coefficient).length + count ∧
      coefficient = extend 0 (significant coefficient) * Nat.pow 10 count := by
  obtain ⟨count, hcount⟩ := significant_append coefficient
  refine ⟨count, ?_, ?_⟩
  · rw [hcount, List.length_append, zeros, List.length_replicate]
  · rw [← extend_zeros, ← extend_append, ← hcount, extend_toDigits]

/-- Digits with a point in them are read, since no power of ten follows. -/
theorem isSome_positionalNumeral {digits : List Char} (hdigits : ∀ c ∈ digits, c.isDigit = true)
    {places : Int} (hplaces : places ≤ 16) (negative : Bool) :
    ({ positionalNumeral digits places with negative } : Numeral).value?.isSome = true := by
  have hparts : (∀ c ∈ (positionalNumeral digits places).whole, c.isDigit = true) ∧
      (positionalNumeral digits places).whole.length ≤ 16 ∧
      (positionalNumeral digits places).exponent = none := by
    unfold positionalNumeral
    split
    · exact ⟨IsDigits.zero.digit, show 1 ≤ 16 by decide, rfl⟩
    · split
      next hlarge =>
        refine ⟨fun c hc => ?_, ?_, rfl⟩
        · rcases List.mem_append.mp hc with hc | hc
          · exact hdigits c hc
          · exact isDigit_of_mem_zeros hc
        · rw [List.length_append, zeros, List.length_replicate]
          omega
      next hsmall =>
        refine ⟨fun c hc => hdigits c (List.mem_of_mem_take hc), ?_, rfl⟩
        rw [List.length_take]
        omega
  obtain ⟨hwhole, hlength, hexponent⟩ := hparts
  refine Numeral.isSome_value? ?_ fun hpower => ?_
  · refine Nat.lt_of_lt_of_le (extend_lt hwhole 0) ?_
    rw [Nat.zero_add, Nat.one_mul]
    exact Nat.le_trans (pow_ten_le hlength) (by decide)
  · unfold Numeral.power at hpower
    rw [hexponent] at hpower
    exact absurd hpower (Int.lt_irrefl 0)

/-- Digits with an exponent are read as long as they stay within the limit. -/
theorem isSome_scientificNumeral {digits : List Char} (hdigits : IsDigits digits)
    {place : Int} (h : 0 < place → extend 0 digits * (Nat.pow 10 place.toNat * Double.unit) ≤
      limit * Nat.pow 10 (digits.length - 1)) (negative : Bool) :
    ({ scientificNumeral digits place with negative } : Numeral).value?.isSome = true := by
  have hdecimals : (scientificNumeral digits place).fraction.getD [] = digits.drop 1 := by
    unfold scientificNumeral
    split
    next hshort => exact (List.drop_eq_nil_iff.mpr hshort).symm
    next => rfl
  have hpower : (scientificNumeral digits place).power = place := by
    have hvalue : digitsValue (Nat.toDigits 10 place.natAbs) = place.natAbs :=
      extend_toDigits place.natAbs
    show Exponent.value ⟨decide (place < 0), Nat.toDigits 10 place.natAbs⟩ = place
    unfold Exponent.value
    simp only [hvalue, decide_eq_true_eq]
    split <;> omega
  have hcoefficient : (scientificNumeral digits place).coefficient = extend 0 digits := by
    unfold Numeral.coefficient
    rw [hdecimals]
    exact congrArg (extend 0) (List.take_append_drop 1 digits)
  refine Numeral.isSome_value? ?_ fun hpositive => ?_
  · refine Nat.lt_of_lt_of_le (extend_lt (fun c hc => ?_) 0) ?_
    · exact hdigits.digit c (List.mem_of_mem_take hc)
    · rw [Nat.zero_add, Nat.one_mul]
      exact Nat.le_trans (pow_ten_le (List.length_take_le 1 digits)) (by decide)
  · have hwithin := h (hpower ▸ hpositive)
    show (scientificNumeral digits place).coefficient *
      (Nat.pow 10 (scientificNumeral digits place).power.toNat * Double.unit) ≤
        limit * Nat.pow 10 ((scientificNumeral digits place).fraction.getD []).length
    rw [hcoefficient, hpower, hdecimals, List.length_drop]
    exact hwithin

/-- The significant digits of a decimal stay within the limit if the decimal does, wherever the
point is put. -/
theorem within_significant {d : Decimal} {place : Int}
    (hplace : (Nat.toDigits 10 d.coefficient).length - 1 + d.exponent = place)
    (hpositive : 0 < place) (hdigits : significant d.coefficient ≠ [])
    (h : d.coefficient * (Nat.pow 10 d.exponent.toNat * Double.unit) ≤
      limit * Nat.pow 10 (-d.exponent).toNat) :
    extend 0 (significant d.coefficient) * (Nat.pow 10 place.toNat * Double.unit) ≤
      limit * Nat.pow 10 ((significant d.coefficient).length - 1) := by
  obtain ⟨count, hlength, hcoefficient⟩ := extend_significant d.coefficient
  have hlong := List.length_pos_iff.mpr hdigits
  generalize extend 0 (significant d.coefficient) = value at hcoefficient ⊢
  generalize (significant d.coefficient).length = length at hlength hlong ⊢
  have hplaces : place.toNat + (-d.exponent).toNat = count + d.exponent.toNat + (length - 1) := by
    omega
  -- The unit and the limit are too large to be computed.
  generalize Double.unit = unit at h ⊢
  generalize limit = most at h ⊢
  have hpos : 0 < Nat.pow 10 (-d.exponent).toNat := Nat.pow_pos (by decide)
  refine Nat.le_of_mul_le_mul_right ?_ hpos
  calc value * (Nat.pow 10 place.toNat * unit) * Nat.pow 10 (-d.exponent).toNat
    _ = value * (Nat.pow 10 place.toNat * Nat.pow 10 (-d.exponent).toNat) * unit := by ac_rfl
    _ = value * (Nat.pow 10 count * Nat.pow 10 d.exponent.toNat * Nat.pow 10 (length - 1)) *
        unit := by rw [pow_ten_mul, hplaces, pow_ten_mul, pow_ten_mul]
    _ = value * Nat.pow 10 count * (Nat.pow 10 d.exponent.toNat * unit) *
        Nat.pow 10 (length - 1) := by ac_rfl
    _ = d.coefficient * (Nat.pow 10 d.exponent.toNat * unit) * Nat.pow 10 (length - 1) := by
        rw [← hcoefficient]
    _ ≤ most * Nat.pow 10 (-d.exponent).toNat * Nat.pow 10 (length - 1) :=
        Nat.mul_le_mul_right _ h
    _ = most * Nat.pow 10 (length - 1) * Nat.pow 10 (-d.exponent).toNat := by ac_rfl

/-- The digits of every double but the greatest are read. -/
theorem isSome_magnitudeNumeral {units : Nat} (hholds : Format.binary64.Holds units)
    (h : units ≠ greatest.units) (negative : Bool) :
    ({ magnitudeNumeral units with negative } : Numeral).value?.isSome = true := by
  unfold magnitudeNumeral
  by_cases hzero : units = 0
  · rw [if_pos hzero]
    exact isSome_positionalNumeral IsDigits.zero.digit (by decide) negative
  rw [if_neg hzero]
  simp only
  rcases coefficient_shortest (Nat.pos_of_ne_zero hzero) with hpos | hnone
  · have hdigits := (significant_of_pos hpos).1
    split
    next hplain => exact isSome_positionalNumeral hdigits.digit (by omega) negative
    next =>
      refine isSome_scientificNumeral hdigits (fun hpositive => ?_) negative
      have hrounds : (shortest units).RoundsTo units := by
        refine (roundsTo_shortest units).resolve_right fun hnone => ?_
        rw [hnone] at hpos
        exact Nat.lt_irrefl 0 hpos
      exact within_significant rfl hpositive hdigits.nonempty
        (within_of_roundsTo hrounds (high_basin_le hzero hholds h))
  · have hdigits : significant 0 = [] := by decide
    rw [hnone, if_pos (by decide), hdigits]
    exact isSome_positionalNumeral (List.forall_mem_nil _) (by decide) negative

end Decimal

namespace Number

/-- **What has been written of a number can be read.** -/
theorem isSome_reread? (n : Number) : n.reread?.isSome = true := by
  cases n with
  | integer k hk =>
      rw [reread?_integer]
      rfl
  | double x =>
      rw [reread?_of_spelling (wellFormed_doubleNumeral x) (token_double x)]
      by_cases hgreatest : x.units = Decimal.greatest.units
      · have hends : (doubleNumeral Decimal.greatest).value?.isSome = true ∧
            (doubleNumeral Decimal.greatest.neg).value?.isSome = true := by decide +kernel
        rcases Finite.eq_or_eq_neg hgreatest with hsame | hother
        · rw [hsame]
          exact hends.1
        · rw [hother]
          exact hends.2
      · exact Decimal.isSome_magnitudeNumeral x.holds hgreatest x.negative

end Number

/-! ### Values -/

namespace Json

mutual

/-- **What has been written of a value can be read.** -/
theorem isSome_reread? : ∀ v : Json, v.reread?.isSome = true
  | .null => rfl
  | .bool _ => rfl
  | .number n => by
      rw [reread?, Option.isSome_map]
      exact n.isSome_reread?
  | .string _ => rfl
  | .array items => by
      rw [reread?, Option.isSome_map]
      exact isSome_rereadItems? items
  | .object members => by
      rw [reread?, Option.isSome_map]
      exact isSome_rereadMembers? members

theorem isSome_rereadItems? : ∀ items : List Json, (rereadItems? items).isSome = true
  | [] => rfl
  | x :: xs => by
      obtain ⟨y, hy⟩ := Option.isSome_iff_exists.mp (isSome_reread? x)
      obtain ⟨ys, hys⟩ := Option.isSome_iff_exists.mp (isSome_rereadItems? xs)
      simp [rereadItems?, hy, hys]

theorem isSome_rereadMembers? :
    ∀ members : List (String × Json), (rereadMembers? members).isSome = true
  | [] => rfl
  | (_, x) :: xs => by
      obtain ⟨y, hy⟩ := Option.isSome_iff_exists.mp (isSome_reread? x)
      obtain ⟨ys, hys⟩ := Option.isSome_iff_exists.mp (isSome_rereadMembers? xs)
      simp [rereadMembers?, hy, hys]

end

/-- Under each key of an object comes back what comes back for its value. -/
theorem field?_of_rereadMembers? {members back : List (String × Json)}
    (h : rereadMembers? members = some back) (key : String) :
    Object.field? back key = (Object.field? members key).bind reread? := by
  induction members generalizing back with
  | nil =>
      obtain rfl := Option.some.inj h
      rfl
  | cons m ms ih =>
      obtain ⟨k, x⟩ := m
      obtain ⟨y, hy, h⟩ := Option.bind_eq_some_iff.mp h
      obtain ⟨ys, hys, h⟩ := Option.bind_eq_some_iff.mp h
      obtain rfl := Option.some.inj h
      rw [Object.field?_cons, Object.field?_cons]
      split
      · exact hy.symm
      · exact ih hys

/-- And so on along any path. -/
theorem under?_of_reread? : ∀ (path : List String) {v back : Json}, v.reread? = some back →
    back.under? path = (v.under? path).bind reread?
  | [], _, _, h => h.symm
  | key :: rest, v, back, h => by
      cases v with
      | object members =>
          obtain ⟨o, ho, rfl⟩ := Option.map_eq_some_iff.mp h
          rw [under?_object, under?_object, field?_of_rereadMembers? ho, Option.bind_assoc,
            Option.bind_assoc]
          refine Option.bind_congr fun x _ => ?_
          obtain ⟨y, hy⟩ := Option.isSome_iff_exists.mp x.isSome_reread?
          rw [hy, Option.bind_some]
          exact under?_of_reread? rest hy
      | null | bool _ | string _ =>
          obtain rfl := Option.some.inj h
          rfl
      | number _ | array _ =>
          obtain ⟨_, -, rfl⟩ := Option.map_eq_some_iff.mp h
          rfl

end Json

end DeviceConfig
