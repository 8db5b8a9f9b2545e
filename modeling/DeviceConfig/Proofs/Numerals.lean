/-
Numbers are spelled as numerals.

A writer of JSON puts the digits of a number together in one of several forms, and the reader takes
them apart by one grammar.  Here the two meet: `Numeral.spelling` is how a numeral is written, a
well-formed numeral is read back from its spelling, whatever comes after it, and every number is
written as the spelling of one.

Nothing is said about the value here, except that a whole number has the digits of that number.
The digits of a double are taken as they come; it does not even matter that they are the shortest.
-/
import Mathlib.Data.List.TakeDrop
import DeviceConfig.Json.Text
import DeviceConfig.Json.Numeral
import DeviceConfig.Proofs.Rounding

namespace DeviceConfig

/-! ### Digits -/

/-- One digit or more, and nothing else. -/
structure IsDigits (cs : List Char) : Prop where
  nonempty : cs ≠ []
  digit : ∀ c ∈ cs, c.isDigit = true

namespace IsDigits

theorem append {cs ds : List Char} (h : IsDigits cs) (h' : ∀ c ∈ ds, c.isDigit = true) :
    IsDigits (cs ++ ds) where
  nonempty := by simp [h.nonempty]
  digit c hc := by
    rcases List.mem_append.mp hc with hc | hc
    · exact h.digit c hc
    · exact h' c hc

theorem toDigits (n : Nat) : IsDigits (Nat.toDigits 10 n) :=
  ⟨Nat.toDigits_ne_nil, fun _ hc => Nat.isDigit_of_mem_toDigits (by decide) (by decide) hc⟩

theorem zero : IsDigits ['0'] := ⟨by simp, by simp⟩

end IsDigits

theorem isDigit_of_mem_zeros {n : Nat} {c : Char} (h : c ∈ Decimal.zeros n) :
    c.isDigit = true := by
  rw [List.eq_of_mem_replicate h]
  rfl

theorem IsDigits.zeros_append {ds : List Char} (h : IsDigits ds) (n : Nat) :
    IsDigits (Decimal.zeros n ++ ds) where
  nonempty := by simp [h.nonempty]
  digit c hc := by
    rcases List.mem_append.mp hc with hc | hc
    · exact isDigit_of_mem_zeros hc
    · exact h.digit c hc

/-- The digits of a positive number do not start with a zero. -/
theorem toDigits_ne_zero_cons {n : Nat} (hn : 0 < n) (rest : List Char) :
    Nat.toDigits 10 n ≠ '0' :: rest := by
  induction n using Nat.strongRecOn generalizing rest with
  | _ n ih =>
    by_cases hsmall : n < 10
    · rw [Nat.toDigits_of_lt_base hsmall]
      intro h
      have hdigit : ∀ m < 10, 0 < m → Nat.digitChar m ≠ '0' := by decide
      exact hdigit n hsmall hn (List.cons.inj h).1
    · have hle : 10 ≤ n := Nat.le_of_not_lt hsmall
      rw [Nat.toDigits_of_base_le (by decide) hle]
      intro h
      cases hfront : Nat.toDigits 10 (n / 10) with
      | nil => exact Nat.toDigits_ne_nil hfront
      | cons c front =>
          rw [hfront] at h
          have hc : c = '0' := (List.cons.inj h).1
          exact ih (n / 10) (by omega) (by omega) front (by rw [hfront, hc])

/-! ### Numerals -/

namespace Numeral

/-- The parts of a numeral are digits, and the whole part has no zero in front of others. -/
structure WellFormed (n : Numeral) : Prop where
  whole : IsDigits n.whole
  leading : ∀ rest, n.whole = '0' :: rest → rest = []
  fraction : ∀ ds, n.fraction = some ds → IsDigits ds
  exponent : ∀ e, n.exponent = some e → IsDigits e.digits

/-- A fraction as it is written. -/
def fractionSpelling : Option (List Char) → List Char
  | some ds => '.' :: ds
  | none => []

/-- An exponent as it is written, always with a sign. -/
def exponentSpelling : Option Exponent → List Char
  | some e => 'e' :: (if e.negative then '-' else '+') :: e.digits
  | none => []

/-- A numeral as it is written. -/
def spelling (n : Numeral) : List Char :=
  (if n.negative then ['-'] else []) ++
    (n.whole ++ (fractionSpelling n.fraction ++ exponentSpelling n.exponent))

/-- A text does not go on with the digits before it. -/
def NoDigit (text : List Char) : Prop := ∀ c rest, text = c :: rest → c.isDigit = false

/-- A text does not go on with the numeral before it. -/
def Ends (text : List Char) : Prop :=
  ∀ c rest, text = c :: rest → c.isDigit = false ∧ c ≠ '.' ∧ c ≠ 'e' ∧ c ≠ 'E'

theorem Ends.noDigit {text : List Char} (h : Ends text) : NoDigit text :=
  fun c rest hc => (h c rest hc).1

theorem ends_nil : Ends [] := nofun

theorem digits_append {ds rest : List Char} (hds : ∀ c ∈ ds, c.isDigit = true)
    (hrest : NoDigit rest) : digits (ds ++ rest) = (ds, rest) := by
  rw [digits, List.span_eq_takeWhile_dropWhile, List.takeWhile_append_of_pos hds,
    List.dropWhile_append_of_pos hds]
  cases rest with
  | nil => simp
  | cons c rest => simp [hrest c rest rfl]

theorem digits?_append {ds rest : List Char} (hds : IsDigits ds) (hrest : NoDigit rest) :
    digits? (ds ++ rest) = some (ds, rest) := by
  have hempty : ds.isEmpty = false := by simpa using hds.nonempty
  unfold digits?
  simp only [digits_append hds.digit hrest, hempty]
  rfl

theorem whole?_append {ds rest : List Char} (hds : IsDigits ds)
    (hleading : ∀ more, ds = '0' :: more → more = []) (hrest : NoDigit rest) :
    whole? (ds ++ rest) = some (ds, rest) := by
  unfold whole?
  rw [digits?_append hds hrest]
  split
  · rename_i c more other h
    have hzero : ds = '0' :: c :: more := (Prod.mk.inj (Option.some.inj h)).1
    cases hleading _ hzero
  · rfl

theorem fraction?_append {fraction : Option (List Char)}
    (h : ∀ ds, fraction = some ds → IsDigits ds) {rest : List Char} (hrest : NoDigit rest)
    (hpoint : ∀ more, rest ≠ '.' :: more) :
    fraction? (fractionSpelling fraction ++ rest) = some (fraction, rest) := by
  cases fraction with
  | none =>
      unfold fractionSpelling fraction?
      split
      · rename_i more hmore
        exact absurd hmore (hpoint more)
      · rfl
  | some ds =>
      show (digits? (ds ++ rest)).map _ = _
      rw [digits?_append (h ds rfl) hrest]
      rfl

theorem exponent?_append {exponent : Option Exponent}
    (h : ∀ e, exponent = some e → IsDigits e.digits) {rest : List Char} (hrest : Ends rest) :
    exponent? (exponentSpelling exponent ++ rest) = some (exponent, rest) := by
  cases exponent with
  | none =>
      unfold exponentSpelling exponent?
      split
      · rename_i more hmore
        exact absurd rfl (hrest 'e' more hmore).2.2.1
      · rename_i more hmore
        exact absurd rfl (hrest 'E' more hmore).2.2.2
      · rfl
  | some e =>
      obtain ⟨negative, ds⟩ := e
      have hds := digits?_append (h _ rfl) hrest.noDigit
      cases negative with
      | true =>
          show (digits? (ds ++ rest)).map _ = _
          rw [hds]
          rfl
      | false =>
          show (digits? (ds ++ rest)).map _ = _
          rw [hds]
          rfl

/-- Neither a fraction nor an exponent starts with a digit. -/
theorem noDigit_exponent {exponent : Option Exponent} {rest : List Char} (hrest : Ends rest) :
    NoDigit (exponentSpelling exponent ++ rest) := by
  cases exponent with
  | none => exact hrest.noDigit
  | some e =>
      intro c more h
      rw [← (List.cons.inj h).1]
      rfl

theorem noDigit_fraction {fraction : Option (List Char)} {exponent : Option Exponent}
    {rest : List Char} (hrest : Ends rest) :
    NoDigit (fractionSpelling fraction ++ (exponentSpelling exponent ++ rest)) := by
  cases fraction with
  | none => exact noDigit_exponent hrest
  | some ds =>
      intro c more h
      rw [← (List.cons.inj h).1]
      rfl

theorem exponent_ne_point {exponent : Option Exponent} {rest : List Char} (hrest : Ends rest)
    (more : List Char) : exponentSpelling exponent ++ rest ≠ '.' :: more := by
  cases exponent with
  | none => exact fun h => (hrest '.' more h).2.1 rfl
  | some e => exact fun h => absurd (List.cons.inj h).1 (by decide)

theorem sign_append {negative : Bool} {text : List Char} (h : ∀ more, text ≠ '-' :: more) :
    sign ((if negative then ['-'] else []) ++ text) = (negative, text) := by
  cases negative with
  | true => rfl
  | false =>
      show sign text = (false, text)
      unfold sign
      split
      · exact absurd rfl (h _)
      · rfl

/-- **A numeral is read back from its spelling.** -/
theorem read?_spelling {n : Numeral} (hn : n.WellFormed) {rest : List Char} (hrest : Ends rest) :
    read? (n.spelling ++ rest) = some (n, rest) := by
  have hsign : ∀ text more, n.whole ++ text ≠ '-' :: more := by
    intro text more h
    cases hwhole : n.whole with
    | nil => exact hn.whole.nonempty hwhole
    | cons c ds =>
        rw [hwhole] at h
        have hc := hn.whole.digit c (by rw [hwhole]; exact List.mem_cons_self)
        rw [(List.cons.inj h).1] at hc
        cases hc
  unfold read? spelling
  rw [List.append_assoc, sign_append (by rw [List.append_assoc]; exact hsign _)]
  simp only [List.append_assoc, Option.bind_eq_bind]
  rw [whole?_append hn.whole hn.leading (noDigit_fraction hrest)]
  simp only [Option.bind_some]
  rw [fraction?_append hn.fraction (noDigit_exponent hrest) (exponent_ne_point hrest)]
  simp only [Option.bind_some]
  rw [exponent?_append hn.exponent hrest]
  rfl

/-- A character that a numeral may start with. -/
def Opens (c : Char) : Prop := c.isDigit = true ∨ c = '-'

theorem ne_of_opens {c d : Char} (hc : Opens c) (hd : d.isDigit = false ∧ d ≠ '-') : c ≠ d := by
  rintro rfl
  rcases hc with hdigit | hminus
  · rw [hd.1] at hdigit
    cases hdigit
  · exact hd.2 hminus

theorem spelling_cons {n : Numeral} (hn : n.WellFormed) :
    ∃ c cs, n.spelling = c :: cs ∧ Opens c := by
  cases hnegative : n.negative with
  | true =>
      refine ⟨'-', n.whole ++ (fractionSpelling n.fraction ++ exponentSpelling n.exponent), ?_,
        .inr rfl⟩
      rw [spelling, hnegative]
      rfl
  | false =>
      obtain ⟨c, cs, hwhole⟩ := List.exists_cons_of_ne_nil hn.whole.nonempty
      refine ⟨c, cs ++ (fractionSpelling n.fraction ++ exponentSpelling n.exponent), ?_,
        .inl (hn.whole.digit c (by rw [hwhole]; exact List.mem_cons_self))⟩
      rw [spelling, hnegative, hwhole]
      rfl

/-! What a spelling is made of. -/

theorem mem_fractionSpelling {fraction : Option (List Char)}
    (h : ∀ ds, fraction = some ds → IsDigits ds) {c : Char}
    (hc : c ∈ fractionSpelling fraction) : c.isDigit = true ∨ c = '.' := by
  cases fraction with
  | none => cases hc
  | some ds =>
      rcases List.mem_cons.mp hc with hpoint | hmem
      · exact .inr hpoint
      · exact .inl ((h ds rfl).digit c hmem)

theorem mem_exponentSpelling {exponent : Option Exponent}
    (h : ∀ e, exponent = some e → IsDigits e.digits) {c : Char}
    (hc : c ∈ exponentSpelling exponent) : c.isDigit = true ∨ c ∈ ['-', '+', 'e'] := by
  cases exponent with
  | none => cases hc
  | some e =>
      rcases List.mem_cons.mp hc with rfl | hc
      · exact .inr (by decide)
      rcases List.mem_cons.mp hc with rfl | hmem
      · cases e.negative <;> exact .inr (by decide)
      · exact .inl ((h e rfl).digit c hmem)

theorem mem_spelling {n : Numeral} (hn : n.WellFormed) {c : Char} (hc : c ∈ n.spelling) :
    c.isDigit = true ∨ c ∈ ['-', '+', '.', 'e'] := by
  unfold spelling at hc
  rcases List.mem_append.mp hc with hsign | hc
  · split at hsign
    · exact .inr (List.mem_append_left _ hsign)
    · cases hsign
  rcases List.mem_append.mp hc with hwhole | hc
  · exact .inl (hn.whole.digit c hwhole)
  rcases List.mem_append.mp hc with hfraction | hexponent
  · exact (mem_fractionSpelling hn.fraction hfraction).imp_right fun h => by simp [h]
  · refine (mem_exponentSpelling hn.exponent hexponent).imp_right fun h => ?_
    have hsub : ['-', '+', 'e'] ⊆ ['-', '+', '.', 'e'] := by decide
    exact hsub h

theorem leading_single {c : Char} : ∀ rest, [c] = '0' :: rest → rest = [] :=
  fun _ h => (List.cons.inj h).2.symm

/-- Digits on both sides of a point make a numeral. -/
theorem wellFormed_pointed {whole fraction : List Char} (hwhole : IsDigits whole)
    (hleading : ∀ rest, whole = '0' :: rest → rest = []) (hfraction : IsDigits fraction) :
    WellFormed ⟨false, whole, some fraction, none⟩ := by
  refine ⟨hwhole, hleading, fun ds hds => ?_, nofun⟩
  rwa [← Option.some.inj hds]

end Numeral

/-! ### The digits of a double -/

namespace Decimal

/-- Not even half of a gap around a positive magnitude reaches down to zero. -/
theorem low_basin_pos {units : Nat} (h : 0 < units) : 0 < (Format.binary64.basin units).low := by
  have hgap : Nat.pow 2 (Format.binary64.shift units) ≤ units := by
    calc Nat.pow 2 (Format.binary64.shift units)
      _ ≤ Nat.pow 2 units.log2 := by
          refine Nat.pow_le_pow_right (by decide) ?_
          show units.log2 + 1 - 53 ≤ units.log2
          omega
      _ ≤ units := Nat.log2_self_le (by omega)
  have hpos : 0 < Nat.pow 2 (Format.binary64.shift units) := pow_pos_two _
  unfold Format.basin
  simp only
  split <;> omega

/-- A range that does not reach down to zero does not contain it. -/
theorem not_contains_zero {b : Basin} (hlow : 0 < b.low) {den : Nat} (hden : 0 < den) :
    b.contains 0 den = false := by
  have hproduct := Nat.mul_pos hlow hden
  unfold Basin.contains
  split
  · rw [decide_eq_false (by omega), Bool.false_and]
  · rw [decide_eq_false (by omega), Bool.false_and]

theorem coefficient_atPlace? {units : Nat} (h : 0 < units) {exponent : Int} {d : Decimal}
    (hd : atPlace? units exponent = some d) : 0 < d.coefficient := by
  unfold atPlace? at hd
  -- The unit is too large a number to be computed, so it goes by a name here.
  generalize Double.unit = unit at hd
  obtain ⟨c, hc, rfl⟩ := Option.map_eq_some_iff.mp hd
  have hcontains := List.find?_some hc
  show 0 < c
  refine Nat.pos_of_ne_zero fun hzero => ?_
  have hden : 0 < Nat.pow 10 (-exponent).toNat := Nat.pow_pos (by decide)
  rw [hzero, Nat.mul_zero, Nat.zero_mul, not_contains_zero (low_basin_pos h) hden] at hcontains
  cases hcontains

/-- The shortest decimal of a magnitude is found at some place, if there is one at all. -/
theorem atPlace?_shortest (units : Nat) :
    (∃ exponent, atPlace? units exponent = some (shortest units)) ∨ shortest units = ⟨0, 0⟩ := by
  unfold shortest
  simp only
  cases hfound : (List.range mostDigits).findSome? fun n : Nat =>
      atPlace? units (leading units Double.unit - n) with
  | none => exact .inr rfl
  | some d =>
      obtain ⟨n, -, hn⟩ := List.exists_of_findSome?_eq_some hfound
      exact .inl ⟨_, hn⟩

/-- The shortest decimal of a positive magnitude is positive, if there is one at all. -/
theorem coefficient_shortest {units : Nat} (h : 0 < units) :
    0 < (shortest units).coefficient ∨ shortest units = ⟨0, 0⟩ :=
  (atPlace?_shortest units).imp_left fun ⟨_, hfound⟩ => coefficient_atPlace? h hfound

/-- Only zeros are missing at the end of the significant digits. -/
theorem significant_append (coefficient : Nat) :
    ∃ n, Nat.toDigits 10 coefficient = significant coefficient ++ zeros n := by
  let digits := (Nat.toDigits 10 coefficient).reverse
  have hzeros : digits.takeWhile (· == '0') =
      List.replicate (digits.takeWhile (· == '0')).length '0' := by
    refine List.eq_replicate_of_mem fun c hc => ?_
    have htaken := List.all_eq_true.mp List.all_takeWhile c hc
    exact eq_of_beq htaken
  refine ⟨(digits.takeWhile (· == '0')).length, ?_⟩
  have hsplit : digits.takeWhile (· == '0') ++ digits.dropWhile (· == '0') = digits :=
    List.takeWhile_append_dropWhile
  have hreverse := congrArg List.reverse hsplit
  rw [List.reverse_append, hzeros, List.reverse_replicate] at hreverse
  exact (List.reverse_reverse _ ▸ hreverse).symm

/-- The significant digits of a positive number start with one that is not zero. -/
theorem significant_of_pos {coefficient : Nat} (h : 0 < coefficient) :
    IsDigits (significant coefficient) ∧ ∀ rest, significant coefficient ≠ '0' :: rest := by
  obtain ⟨n, hn⟩ := significant_append coefficient
  have hleading : ∀ rest, significant coefficient ≠ '0' :: rest := by
    intro rest hrest
    rw [hrest] at hn
    exact toDigits_ne_zero_cons h _ hn
  refine ⟨⟨fun hnil => ?_, fun c hc => ?_⟩, hleading⟩
  · rw [hnil, List.nil_append] at hn
    cases n with
    | zero => exact Nat.toDigits_ne_nil hn
    | succ n => exact toDigits_ne_zero_cons h _ hn
  · refine (IsDigits.toDigits coefficient).digit c ?_
    rw [hn]
    exact List.mem_append_left _ hc

/-- The numeral of digits with a point in them, wherever the point is. -/
def positionalNumeral (digits : List Char) (places : Int) : Numeral :=
  if places ≤ 0 then ⟨false, ['0'], some (zeros (-places).toNat ++ digits), none⟩
  else if digits.length ≤ places.toNat then
    ⟨false, digits ++ zeros (places.toNat - digits.length), some ['0'], none⟩
  else ⟨false, digits.take places.toNat, some (digits.drop places.toNat), none⟩

theorem positional_spelling (digits : List Char) (places : Int) :
    positional Number.style digits places = (positionalNumeral digits places).spelling := by
  unfold positional positionalNumeral
  split
  · simp [Numeral.spelling, Numeral.fractionSpelling, Numeral.exponentSpelling]
  · split <;>
      simp [Numeral.spelling, Numeral.fractionSpelling, Numeral.exponentSpelling, Number.style]

theorem wellFormed_positionalNumeral {digits : List Char} (hdigits : IsDigits digits)
    (hleading : ∀ rest, digits ≠ '0' :: rest) (places : Int) :
    (positionalNumeral digits places).WellFormed := by
  unfold positionalNumeral
  by_cases hsmall : places ≤ 0
  · rw [if_pos hsmall]
    exact Numeral.wellFormed_pointed .zero Numeral.leading_single (hdigits.zeros_append (-places).toNat)
  rw [if_neg hsmall]
  by_cases hlarge : digits.length ≤ places.toNat
  · rw [if_pos hlarge]
    refine Numeral.wellFormed_pointed (hdigits.append fun c hc => isDigit_of_mem_zeros hc)
      (fun rest h => ?_) .zero
    obtain ⟨c, cs, rfl⟩ := List.exists_cons_of_ne_nil hdigits.nonempty
    exact absurd (by rw [(List.cons.inj h).1]) (hleading cs)
  · rw [if_neg hlarge]
    refine Numeral.wellFormed_pointed ⟨?_, fun c hc => hdigits.digit c (List.mem_of_mem_take hc)⟩
      (fun rest h => ?_) ⟨?_, fun c hc => hdigits.digit c (List.mem_of_mem_drop hc)⟩
    · rw [Ne, List.take_eq_nil_iff]
      rintro (hplaces | hnil)
      · omega
      · exact hdigits.nonempty hnil
    · have hcons : digits = '0' :: (rest ++ digits.drop places.toNat) := by
        rw [← List.cons_append, ← h, List.take_append_drop]
      exact absurd hcons (hleading _)
    · rw [Ne, List.drop_eq_nil_iff]
      omega

/-- The numeral of digits with an exponent, the first of them in front of the point. -/
def scientificNumeral (digits : List Char) (place : Int) : Numeral where
  negative := false
  whole := digits.take 1
  fraction := if digits.length ≤ 1 then none else some (digits.drop 1)
  exponent := some ⟨decide (place < 0), Nat.toDigits 10 place.natAbs⟩

theorem scientific_spelling {digits : List Char} (hdigits : digits ≠ []) (place : Int) :
    scientific digits place = (scientificNumeral digits place).spelling := by
  obtain ⟨d, cs, rfl⟩ := List.exists_cons_of_ne_nil hdigits
  cases cs <;>
    simp [scientific, scientificNumeral, Numeral.spelling, Numeral.fractionSpelling,
      Numeral.exponentSpelling]

theorem wellFormed_scientificNumeral {digits : List Char} (hdigits : IsDigits digits)
    (place : Int) : (scientificNumeral digits place).WellFormed := by
  obtain ⟨d, cs, rfl⟩ := List.exists_cons_of_ne_nil hdigits.nonempty
  refine ⟨⟨by simp [scientificNumeral], fun c hc => hdigits.digit c (List.mem_of_mem_take hc)⟩,
    Numeral.leading_single, fun ds hds => ?_, fun e he => ?_⟩
  · simp only [scientificNumeral] at hds
    split at hds
    next => cases hds
    next hlong =>
      rw [← Option.some.inj hds]
      refine ⟨fun hnil => ?_, fun c hc => hdigits.digit c (List.mem_of_mem_drop hc)⟩
      rw [List.drop_eq_nil_iff] at hnil
      exact hlong hnil
  · rw [← Option.some.inj he]
    exact .toDigits _

/-- The numeral of a magnitude. -/
def magnitudeNumeral (units : Nat) : Numeral :=
  if units = 0 then positionalNumeral ['0'] 1
  else
    let short := shortest units
    let digits := significant short.coefficient
    let place := (Nat.toDigits 10 short.coefficient).length - 1 + short.exponent
    if -5 ≤ place ∧ place < 16 then positionalNumeral digits (place + 1)
    else scientificNumeral digits place

theorem negative_magnitudeNumeral (units : Nat) : (magnitudeNumeral units).negative = false := by
  have hpositional : ∀ digits places, (positionalNumeral digits places).negative = false := by
    intro digits places
    unfold positionalNumeral
    split
    · rfl
    · split <;> rfl
  unfold magnitudeNumeral
  split
  · exact hpositional _ _
  · simp only
    split
    · exact hpositional _ _
    · rfl

/-- **Every magnitude is written as a numeral.** -/
theorem magnitude_spelling (units : Nat) :
    Number.style.magnitude units = (magnitudeNumeral units).spelling ∧
      (magnitudeNumeral units).WellFormed := by
  unfold Style.magnitude magnitudeNumeral
  by_cases hzero : units = 0
  · rw [if_pos hzero, if_pos hzero]
    exact ⟨positional_spelling _ _,
      Numeral.wellFormed_pointed .zero Numeral.leading_single .zero⟩
  rw [if_neg hzero, if_neg hzero]
  rcases coefficient_shortest (Nat.pos_of_ne_zero hzero) with hpos | hnone
  · obtain ⟨hdigits, hleading⟩ := significant_of_pos hpos
    simp only [Number.style, Bool.and_eq_true, decide_eq_true_eq]
    split
    · exact ⟨positional_spelling _ _, wellFormed_positionalNumeral hdigits hleading _⟩
    · exact ⟨scientific_spelling hdigits.nonempty _, wellFormed_scientificNumeral hdigits _⟩
  · rw [hnone]
    exact ⟨positional_spelling [] 1,
      Numeral.wellFormed_pointed .zero Numeral.leading_single .zero⟩

end Decimal

/-! ### The tokens of numbers -/

namespace Number

/-- A numeral with another sign is as well formed. -/
theorem wellFormed_sign {n : Numeral} (hn : n.WellFormed) (negative : Bool) :
    { n with negative }.WellFormed := ⟨hn.whole, hn.leading, hn.fraction, hn.exponent⟩

/-- The numeral of a whole number. -/
def wholeNumeral (k : Int) : Numeral := ⟨decide (k < 0), Nat.toDigits 10 k.natAbs, none, none⟩

theorem wellFormed_wholeNumeral (k : Int) : (wholeNumeral k).WellFormed := by
  refine ⟨.toDigits k.natAbs, fun rest h => ?_, nofun, nofun⟩
  by_cases hk : k.natAbs = 0
  · have hdigits : (wholeNumeral k).whole = ['0'] := by
      show Nat.toDigits 10 k.natAbs = ['0']
      rw [hk]
      rfl
    rw [hdigits] at h
    exact (List.cons.inj h).2.symm
  · exact absurd h (toDigits_ne_zero_cons (Nat.pos_of_ne_zero hk) rest)

theorem token_integer (k : Int) (hk : -0x8000000000000000 ≤ k ∧ k < 0x10000000000000000) :
    (integer k hk).token = (wholeNumeral k).spelling := by
  by_cases h : k < 0 <;>
    simp [token, wholeNumeral, Numeral.spelling, Numeral.fractionSpelling,
      Numeral.exponentSpelling, h]

/-- The numeral of a double. -/
def doubleNumeral (x : Double) : Numeral :=
  { Decimal.magnitudeNumeral x.units with negative := x.negative }

theorem wellFormed_doubleNumeral (x : Double) : (doubleNumeral x).WellFormed :=
  wellFormed_sign (Decimal.magnitude_spelling x.units).2 x.negative

theorem token_double (x : Double) : (double x).token = (doubleNumeral x).spelling := by
  show (if x.negative then ['-'] else []) ++ style.magnitude x.units = _
  rw [(Decimal.magnitude_spelling x.units).1, Numeral.spelling, Numeral.spelling,
    Decimal.negative_magnitudeNumeral]
  rfl

/-- **Every number is written as a numeral.** -/
theorem token_spelled (n : Number) : ∃ m : Numeral, m.WellFormed ∧ n.token = m.spelling := by
  cases n with
  | integer k hk => exact ⟨wholeNumeral k, wellFormed_wholeNumeral k, token_integer k hk⟩
  | double x => exact ⟨doubleNumeral x, wellFormed_doubleNumeral x, token_double x⟩

end Number

end DeviceConfig
