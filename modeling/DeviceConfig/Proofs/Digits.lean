/-
Numbers that are written and read again.

The digits of a number denote it, whatever stands in for a digit as long as it has the same value,
and zeros in front make no difference.  So an address is given back by its upper-case hexadecimal
digits, and data by its decimal ones.
-/
import DeviceConfig.Picture.Register

namespace DeviceConfig

namespace Text

theorem digitsValue?_append (base : Nat) (digits more : List Char) :
    digitsValue? base (digits ++ more) = (digitsValue? base digits).bind fun n =>
      more.foldlM (fun n c => (digit? base c).map (base * n + ·)) n := List.foldlM_append

/-- The digits of a number denote it. -/
theorem digitsValue?_toDigits {base : Nat} (hbase : 1 < base) {glyph : Char → Char}
    (hglyph : ∀ d < base, digit? base (glyph d.digitChar) = some d) (n : Nat) :
    digitsValue? base ((Nat.toDigits base n).map glyph) = some n := by
  induction n using Nat.strongRecOn with
  | _ n ih =>
    by_cases hn : n < base
    · rw [Nat.toDigits_of_lt_base hn]
      simp [digitsValue?, hglyph n hn]
    · have hle : base ≤ n := Nat.le_of_not_lt hn
      have hlt : n / base < n := Nat.div_lt_self (by omega) hbase
      have hdigit := hglyph (n % base) (Nat.mod_lt n (by omega))
      rw [Nat.toDigits_of_base_le hbase hle, List.map_append, digitsValue?_append, ih _ hlt]
      simp [hdigit, Nat.div_add_mod]

/-- Zeros in front make no difference. -/
theorem digitsValue?_replicate_zero {base : Nat} (hbase : 1 < base) (places : Nat)
    (digits : List Char) :
    digitsValue? base (List.replicate places '0' ++ digits) = digitsValue? base digits := by
  have hzero : digit? base '0' = some 0 := by
    simp [digit?, hexDigit?, Nat.lt_of_succ_lt hbase]
  induction places with
  | zero => rfl
  | succ places ih =>
      rw [List.replicate_succ, List.cons_append]
      show ((digit? base '0').map (base * 0 + ·)).bind _ = _
      rw [hzero]
      exact ih

/-- Nothing that denotes a number starts with a character that is no digit. -/
theorem digitsValue?_cons_of_not_digit {base : Nat} {c : Char} (hc : digit? base c = none)
    (digits : List Char) (n : Nat) :
    List.foldlM (fun n c => (digit? base c).map (base * n + ·)) n (c :: digits) = none := by
  simp [hc]

/-- Digits that denote a number have no sign in front. -/
theorem unsigned_of_digitsValue? {base : Nat} (hplus : digit? base '+' = none) {digits : List Char}
    {n : Nat} (h : digitsValue? base digits = some n) : unsigned digits = digits := by
  unfold unsigned
  split
  · rw [digitsValue?, digitsValue?_cons_of_not_digit hplus] at h
    cases h
  · rfl

/-- A number in 64 bits is given back by anything that denotes it. -/
theorem long?_of_digitsValue? {base : Nat} (hplus : digit? base '+' = none) {digits : List Char}
    (hdigits : digits ≠ []) {w : UInt64} (h : digitsValue? base digits = some w.toNat) :
    long? base digits = some w := by
  have hnumber : number? base digits = some w.toNat := by
    unfold number?
    rw [unsigned_of_digitsValue? hplus h, if_neg (by simpa using hdigits), h]
  simp [long?, hnumber, w.toNat_lt_size]

end Text

namespace RegisterWrite

/-- Digits that denote a number have no mark in front. -/
theorem addressDigits_of_digitsValue? {digits : List Char} {n : Nat}
    (h : Text.digitsValue? 16 digits = some n) : addressDigits digits = digits := by
  have hmark : ∀ (c : Char) (rest : List Char), Text.digit? 16 c = none →
      Text.digitsValue? 16 ('0' :: c :: rest) = none := by
    intro c rest hc
    exact Text.digitsValue?_cons_of_not_digit hc rest 0
  unfold addressDigits
  split
  · rw [hmark _ _ (by decide)] at h
    cases h
  · rw [hmark _ _ (by decide)] at h
    cases h
  · rfl

/-- An address is given back by its digits. -/
theorem address?_hex (w : UInt64) : address? (Text.hex 16 w.toNat) = some w := by
  let digits := (Nat.toDigits 16 w.toNat).map Char.toUpper
  have htext : (Text.hex 16 w.toNat).toList =
      List.replicate (16 - digits.length) '0' ++ digits := String.toList_ofList
  have hvalue : Text.digitsValue? 16 (List.replicate (16 - digits.length) '0' ++ digits) =
      some w.toNat := by
    rw [Text.digitsValue?_replicate_zero (by decide)]
    exact Text.digitsValue?_toDigits (by decide) (by decide) w.toNat
  have hdigits : List.replicate (16 - digits.length) '0' ++ digits ≠ [] := by
    simp [digits, Nat.toDigits_ne_nil]
  unfold address?
  rw [htext, addressDigits_of_digitsValue? hvalue]
  exact Text.long?_of_digitsValue? (by decide) hdigits hvalue

/-- Data is given back by its digits. -/
theorem data?_toString (w : UInt64) : data? (toString w.toNat) = some w := by
  have htext : (toString w.toNat).toList = Nat.toDigits 10 w.toNat := Nat.toList_repr
  have hvalue : Text.digitsValue? 10 (Nat.toDigits 10 w.toNat) = some w.toNat := by
    have h := @Text.digitsValue?_toDigits 10 (by decide) (fun c => c) (by decide) w.toNat
    rwa [List.map_id'] at h
  unfold data?
  rw [htext]
  exact Text.long?_of_digitsValue? (by decide) Nat.toDigits_ne_nil hvalue

end RegisterWrite

end DeviceConfig
