/-
The entries of a register list.

An entry spells a write.  What may be written for each of its parts is a small grammar, and what is
written has a meaning: digits denote a number, and a number has an integer part.  The grammar
is stated here without regard to how an entry is read.

Checking and reading are two different functions.  The check accepts exactly what is in the
grammar, reading gives what is meant by it, and what is shown of a write is in the grammar and means
that write.  Since the meaning goes by the value of a numeral, marks, signs and zeros in front make
no difference, however many digits there are.
-/
import Mathlib.Data.Nat.Digits.Defs
import DeviceConfig.Proofs.Digits
import DeviceConfig.Proofs.Repetition
import DeviceConfig.Proofs.Values
import DeviceConfig.Proofs.WellFormed

namespace DeviceConfig

/-! ### Numerals -/

namespace Text

variable {base : Nat}

/-- A character stands for a digit.  The letters may be of either case. -/
def IsDigit (base : Nat) (c : Char) (d : Nat) : Prop :=
  d < base ∧ (c = d.digitChar ∨ c = d.digitChar.toUpper)

instance (base : Nat) (c : Char) (d : Nat) : Decidable (IsDigit base c d) :=
  inferInstanceAs (Decidable (_ ∧ _))

/-- Digits denote a number: from the last one on, they are its digits. -/
def Denotes (base : Nat) (digits : List Char) (n : Nat) : Prop :=
  ∃ ds, List.Forall₂ (IsDigit base) digits.reverse ds ∧ n = Nat.ofDigits base ds

/-- A number as it may be written: one or more digits, with a plus sign in front or without. -/
def Numeral (base : Nat) (text : List Char) (n : Nat) : Prop :=
  ∃ plus digits, (plus = [] ∨ plus = ['+']) ∧ text = plus ++ digits ∧ digits ≠ [] ∧
    Denotes base digits n

theorem toNat_lt_of_hexDigit? {c : Char} {d : Nat} (h : hexDigit? c = some d) : c.toNat < 128 := by
  have hval : c.toNat = c.val.toNat := rfl
  have hbound : ∀ {high : Char}, c ≤ high → c.toNat ≤ high.toNat := fun h => h
  have h9 : '9'.toNat < 128 := by decide
  have hf : 'f'.toNat < 128 := by decide
  have hF : 'F'.toNat < 128 := by decide
  unfold hexDigit? at h
  split at h
  · rename_i hrange
    exact Nat.lt_of_le_of_lt (hbound hrange.2) h9
  · split at h
    · rename_i hrange
      exact Nat.lt_of_le_of_lt (hbound hrange.2) hf
    · split at h
      · rename_i hrange
        exact Nat.lt_of_le_of_lt (hbound hrange.2) hF
      · cases h

theorem hexDigit?_eq_some {c : Char} {d : Nat} : hexDigit? c = some d ↔ IsDigit 16 c d := by
  constructor
  · intro h
    have hall : ∀ i < 128, (hexDigit? (Char.ofNat i)).all fun d =>
        decide (IsDigit 16 (Char.ofNat i) d) := by decide +kernel
    have hc := hall c.toNat (toNat_lt_of_hexDigit? h)
    rw [Char.ofNat_toNat, h] at hc
    exact of_decide_eq_true hc
  · have hall : ∀ d < 16, hexDigit? d.digitChar = some d ∧
        hexDigit? d.digitChar.toUpper = some d := by decide +kernel
    rintro ⟨hd, rfl | rfl⟩
    · exact (hall d hd).1
    · exact (hall d hd).2

/-- The digits that are read are those of the grammar. -/
theorem digit?_eq_some (hbase : base ≤ 16) {c : Char} {d : Nat} :
    digit? base c = some d ↔ IsDigit base c d := by
  unfold digit?
  rw [Option.filter_eq_some_iff, hexDigit?_eq_some, decide_eq_true_eq]
  constructor
  · rintro ⟨⟨-, hc⟩, hd⟩
    exact ⟨hd, hc⟩
  · rintro ⟨hd, hc⟩
    exact ⟨⟨Nat.lt_of_lt_of_le hd hbase, hc⟩, hd⟩

theorem digit?_plus (base : Nat) : digit? base '+' = none := by
  have hhex : hexDigit? '+' = none := by decide
  rw [digit?, hhex]
  rfl

/-- What is read from digits is the number that they denote. -/
theorem digitsValue?_eq_some (hbase : base ≤ 16) {digits : List Char} {n : Nat} :
    digitsValue? base digits = some n ↔ Denotes base digits n := by
  -- The last digit is the one that is read last, and the first one of the number.
  have hreverse : ∀ (cs : List Char) (n : Nat), digitsValue? base cs.reverse = some n ↔
      ∃ ds, List.Forall₂ (IsDigit base) cs ds ∧ n = Nat.ofDigits base ds := by
    intro cs
    induction cs with
    | nil =>
        intro n
        constructor
        · rintro ⟨⟩
          exact ⟨[], .nil, rfl⟩
        · rintro ⟨ds, hds, rfl⟩
          cases hds
          rfl
    | cons c cs ih =>
        intro n
        have hlast : digitsValue? base (c :: cs).reverse =
            (digitsValue? base cs.reverse).bind fun m =>
              (digit? base c).map (base * m + ·) := by
          rw [List.reverse_cons, digitsValue?_append]
          simp
        rw [hlast, Option.bind_eq_some_iff]
        constructor
        · rintro ⟨m, hm, hn⟩
          obtain ⟨d, hd, rfl⟩ := Option.map_eq_some_iff.mp hn
          obtain ⟨ds, hds, rfl⟩ := (ih m).mp hm
          refine ⟨d :: ds, .cons ((digit?_eq_some hbase).mp hd) hds, ?_⟩
          rw [Nat.ofDigits_cons, Nat.add_comm]
        · rintro ⟨ds, hds, rfl⟩
          cases hds with
          | @cons _ d _ ds hd hds =>
              refine ⟨_, (ih _).mpr ⟨ds, hds, rfl⟩, ?_⟩
              rw [(digit?_eq_some hbase).mpr hd, Nat.ofDigits_cons, Nat.add_comm]
              rfl
  have h := hreverse digits.reverse n
  rwa [List.reverse_reverse] at h

/-- What is read from a text is the number that it is a numeral of. -/
theorem number?_eq_some (hbase : base ≤ 16) {text : List Char} {n : Nat} :
    number? base text = some n ↔ Numeral base text n := by
  unfold number?
  constructor
  · intro h
    have hsign : ∃ plus, (plus = [] ∨ plus = ['+']) ∧ text = plus ++ unsigned text := by
      unfold unsigned
      split
      · exact ⟨['+'], .inr rfl, rfl⟩
      · exact ⟨[], .inl rfl, rfl⟩
    obtain ⟨plus, hplus, htext⟩ := hsign
    split at h
    · cases h
    · rename_i hne
      exact ⟨plus, unsigned text, hplus, htext, by simpa using hne,
        (digitsValue?_eq_some hbase).mp h⟩
  · rintro ⟨plus, digits, hplus, rfl, hne, hdenotes⟩
    have hvalue := (digitsValue?_eq_some hbase).mpr hdenotes
    have hunsigned : unsigned (plus ++ digits) = digits := by
      rcases hplus with rfl | rfl
      · exact unsigned_of_digitsValue? (digit?_plus base) hvalue
      · rfl
    rw [hunsigned, if_neg (by simpa using hne), hvalue]

/-- A text is read if and only if it is a numeral of a number in 64 bits. -/
theorem long?_eq_some (hbase : base ≤ 16) {text : List Char} {w : UInt64} :
    long? base text = some w ↔ Numeral base text w.toNat := by
  rw [← number?_eq_some hbase, long?, Option.bind_eq_some_iff]
  constructor
  · rintro ⟨n, hn, hw⟩
    split at hw
    · rename_i hlt
      obtain rfl := Option.some.inj hw
      rw [hn, UInt64.toNat_ofNat_of_lt' hlt]
    · cases hw
  · intro h
    exact ⟨w.toNat, h, by rw [if_pos w.toNat_lt_size, UInt64.ofNat_toNat]⟩

end Text

/-! ### Spellings -/

namespace RegisterWrite

/-- An address as it may be written: a hexadecimal numeral, with a mark in front or without. -/
def Address (text : List Char) (n : Nat) : Prop :=
  ∃ mark rest, (mark = [] ∨ mark = ['0', 'x'] ∨ mark = ['0', 'X']) ∧ text = mark ++ rest ∧
    Text.Numeral 16 rest n

/-- A numeral has no mark in front. -/
theorem addressDigits_of_numeral {text : List Char} {n : Nat} (h : Text.Numeral 16 text n) :
    addressDigits text = text := by
  obtain ⟨plus, digits, rfl | rfl, rfl, -, hdenotes⟩ := h
  · exact addressDigits_of_digitsValue? ((Text.digitsValue?_eq_some (by decide)).mpr hdenotes)
  · rfl

/-- An address is read if and only if it is written as it may be. -/
theorem address?_eq_some {text : String} {w : UInt64} :
    address? text = some w ↔ Address text.toList w.toNat := by
  rw [address?, Text.long?_eq_some (by decide)]
  constructor
  · intro h
    have hmark : ∃ mark, (mark = [] ∨ mark = ['0', 'x'] ∨ mark = ['0', 'X']) ∧
        text.toList = mark ++ addressDigits text.toList := by
      unfold addressDigits
      split
      · exact ⟨['0', 'x'], .inr (.inl rfl), by assumption⟩
      · exact ⟨['0', 'X'], .inr (.inr rfl), by assumption⟩
      · exact ⟨[], .inl rfl, rfl⟩
    obtain ⟨mark, hmark, htext⟩ := hmark
    exact ⟨mark, _, hmark, htext, h⟩
  · rintro ⟨mark, rest, hmark, htext, hrest⟩
    have hdigits : addressDigits text.toList = rest := by
      rw [htext]
      rcases hmark with rfl | rfl | rfl
      · exact addressDigits_of_numeral hrest
      · rfl
      · rfl
    rw [hdigits]
    exact hrest

/-- Data is read if and only if it is a decimal numeral. -/
theorem data?_eq_some {text : String} {w : UInt64} :
    data? text = some w ↔ Text.Numeral 10 text.toList w.toNat := Text.long?_eq_some (by decide)

/-- An entry spells its four parts: two numbers within limits, and two texts that denote numbers in
64 bits. -/
structure Spells (entry : Object) (bits id : Number) (address data : Nat) : Prop where
  bits_found : Object.field? entry "bit_length" = some (.number bits)
  bits_range : 0 ≤ bits.value ∧ bits.value ≤ 3
  id_found : Object.field? entry "id" = some (.number id)
  id_range : 0 ≤ id.value ∧ id.value ≤ 4294967295
  address_found : ∃ text, Object.field? entry "address" = some (.string text) ∧
    Address text.toList address
  address_lt : address < 18446744073709551616
  data_found : ∃ text, Object.field? entry "data" = some (.string text) ∧
    Text.Numeral 10 text.toList data
  data_lt : data < 18446744073709551616

/-! ### Checking -/

end RegisterWrite

/-- In an object without a repeated key no rule is broken if and only if none is broken by a field
that is found. -/
theorem Rule.checkAll_iff {rules : List Rule} {o : Object} (hkeys : (o.map Prod.fst).Nodup) :
    checkAll rules o = .ok () ↔
      ∀ r ∈ rules, ∀ v, Object.field? o r.field = some v → r.constraint.admits v = true := by
  refine ⟨fun h r hr v hv => admits_of_checkAll h hr hv, fun h => ?_⟩
  refine Verdict.forM_eq_ok.mpr fun m hm => Verdict.forM_eq_ok.mpr fun r hr => ?_
  obtain ⟨hrule, hfield⟩ := List.mem_filter.mp hr
  have hv : Object.field? o r.field = some m.2 := by
    rw [eq_of_beq hfield]
    exact Object.field?_of_mem hkeys hm
  exact if_pos (h r hrule m.2 hv)

namespace Constraint

theorem admits_number_iff {v : Json} :
    (kind .number).admits v = true ↔ ∃ n, v = .number n := by
  cases v <;> simp [admits, Json.kind]

theorem admits_string_iff {v : Json} :
    (kind .string).admits v = true ↔ ∃ s, v = .string s := by
  cases v <;> simp [admits, Json.kind]

/-- A number is held to its value. -/
theorem admits_atLeast_iff {n : Number} {k : Nat} (hk : k < Nat.pow 2 53) :
    (bound .atLeast (OfNat.ofNat k)).admits (.number n) = true ↔ k ≤ n.value := by
  show decide ((Double.ofInt k).toInt ≤ n.toDouble.toInt) = true ↔ _
  rw [decide_eq_true_eq]
  exact (n.toDouble_compare hk).2

theorem admits_atMost_iff {n : Number} {k : Nat} (hk : k < Nat.pow 2 53) :
    (bound .atMost (OfNat.ofNat k)).admits (.number n) = true ↔ n.value ≤ k := by
  show decide (n.toDouble.toInt ≤ (Double.ofInt k).toInt) = true ↔ _
  rw [decide_eq_true_eq]
  exact (n.toDouble_compare hk).1

end Constraint

namespace RegisterWrite

theorem checkEntry_object {entry : Object} :
    checkEntry (.object entry) = .ok () ↔
      Rule.checkAll rules entry = .ok () ∧ (∀ name ∈ fields, Object.has entry name = true) ∧
        (∃ w, (Object.string? entry "address").bind address? = some w) ∧
        ∃ w, (Object.string? entry "data").bind data? = some w := by
  rw [checkEntry, Verdict.bind_eq_ok]
  refine and_congr_right fun _ => ?_
  split
  · rename_i hmissing
    simp only [reduceCtorEq, false_iff, not_and]
    intro hhas
    obtain ⟨name, hname, hnot⟩ := List.any_eq_true.mp hmissing
    simp [hhas name hname] at hnot
  · rename_i hpresent
    have hhas : ∀ name ∈ fields, Object.has entry name = true := by simpa using hpresent
    rw [and_iff_right hhas]
    split
    · rename_i hnone
      simp [Option.isNone_iff_eq_none.mp hnone]
    · rename_i haddress
      rw [and_iff_right (Option.ne_none_iff_exists'.mp (by simpa using haddress))]
      split
      · rename_i hnone
        simp [Option.isNone_iff_eq_none.mp hnone]
      · rename_i hdata
        simpa using Option.ne_none_iff_exists'.mp (by simpa using hdata)

/-- A text that is found and read. -/
theorem string?_bind_eq_some {entry : Object} {name : String} {read : String → Option UInt64}
    {w : UInt64} :
    (Object.string? entry name).bind read = some w ↔
      ∃ text, Object.field? entry name = some (.string text) ∧ read text = some w := by
  rw [Option.bind_eq_some_iff]
  refine exists_congr fun text => and_congr_left fun _ => ?_
  rw [Object.string?, Option.bind_eq_some_iff]
  constructor
  · rintro ⟨v, hv, htext⟩
    cases v with
    | string s =>
        obtain rfl : s = text := Option.some.inj htext
        exact hv
    | _ => cases htext
  · exact fun hv => ⟨_, hv, rfl⟩

/-- An entry that is accepted spells a write. -/
theorem spells_of_checkEntry {entry : Object} (h : checkEntry (.object entry) = .ok ()) :
    ∃ bits id address data, Spells entry bits id address data := by
  obtain ⟨hrules, hhas, ⟨address, haddress⟩, data, hdata⟩ := checkEntry_object.mp h
  have hnumber : ∀ name ∈ fields, Rule.number name ∈ rules →
      ∃ n, Object.field? entry name = some (.number n) := by
    intro name hname hrule
    obtain ⟨v, hv⟩ := Option.isSome_iff_exists.mp (hhas name hname)
    obtain ⟨n, rfl⟩ := Constraint.admits_number_iff.mp (Rule.admits_of_checkAll hrules hrule hv)
    exact ⟨n, hv⟩
  obtain ⟨bits, hbits⟩ := hnumber "bit_length" (by simp [fields]) (by simp [rules, Rule.range])
  obtain ⟨id, hid⟩ := hnumber "id" (by simp [fields]) (by simp [rules])
  have hlimits : ∀ (high : Nat) {name : String} {n : Number},
      Object.field? entry name = some (.number n) → Rule.atLeast name 0 ∈ rules →
      Rule.atMost name (OfNat.ofNat high) ∈ rules → high < Nat.pow 2 53 →
      0 ≤ n.value ∧ n.value ≤ high := by
    intro high name n hn hlow hhigh hshort
    have h0 := (Constraint.admits_atLeast_iff (k := 0) (by decide)).mp
      (Rule.admits_of_checkAll hrules hlow hn)
    exact ⟨Nat.cast_zero.symm.trans_le h0, (Constraint.admits_atMost_iff hshort).mp
      (Rule.admits_of_checkAll hrules hhigh hn)⟩
  have hbitsRange := hlimits 3 hbits (by simp [rules, Rule.range])
    (by simp [rules, Rule.range]) (by decide)
  have hidRange := hlimits 4294967295 hid (by simp [rules]) (by simp [rules]) (by decide)
  obtain ⟨text, htext, hread⟩ := string?_bind_eq_some.mp haddress
  obtain ⟨text', htext', hread'⟩ := string?_bind_eq_some.mp hdata
  exact ⟨bits, id, address.toNat, data.toNat,
    { bits_found := hbits
      bits_range := ⟨hbitsRange.1, hbitsRange.2.trans_eq Nat.cast_ofNat⟩
      id_found := hid
      id_range := ⟨hidRange.1, hidRange.2.trans_eq Nat.cast_ofNat⟩
      address_found := ⟨text, htext, address?_eq_some.mp hread⟩
      address_lt := address.toNat_lt_size
      data_found := ⟨text', htext', data?_eq_some.mp hread'⟩
      data_lt := data.toNat_lt_size }⟩

namespace Spells

variable {entry : Object} {bits id : Number} {address data : Nat}

/-- The texts of an entry are read as what they denote. -/
theorem texts (h : Spells entry bits id address data) :
    (Object.string? entry "address").bind address? = some (UInt64.ofNat address) ∧
      (Object.string? entry "data").bind data? = some (UInt64.ofNat data) := by
  obtain ⟨text, htext, haddress⟩ := h.address_found
  obtain ⟨text', htext', hdata⟩ := h.data_found
  refine ⟨string?_bind_eq_some.mpr ⟨text, htext, address?_eq_some.mpr ?_⟩,
    string?_bind_eq_some.mpr ⟨text', htext', data?_eq_some.mpr ?_⟩⟩
  · rwa [UInt64.toNat_ofNat_of_lt' h.address_lt]
  · rwa [UInt64.toNat_ofNat_of_lt' h.data_lt]

/-- An entry that spells a write is accepted. -/
theorem checkEntry (h : Spells entry bits id address data) (hkeys : (entry.map Prod.fst).Nodup) :
    checkEntry (.object entry) = .ok () := by
  obtain ⟨haddress, hdata⟩ := h.texts
  obtain ⟨text, htext, -⟩ := h.address_found
  obtain ⟨text', htext', -⟩ := h.data_found
  refine checkEntry_object.mpr ⟨(Rule.checkAll_iff hkeys).mpr ?_, ?_, ⟨_, haddress⟩, ⟨_, hdata⟩⟩
  · have hat : ∀ {name : String} {c : Constraint} {w : Json}, Object.field? entry name = some w →
        c.admits w = true → ∀ v, Object.field? entry name = some v → c.admits v = true := by
      intro name c w hw hadmits v hv
      obtain rfl := Option.some.inj (hw.symm.trans hv)
      exact hadmits
    have hlow : ∀ {n : Number}, 0 ≤ n.value →
        (Constraint.bound .atLeast (OfNat.ofNat 0)).admits (.number n) = true := fun h0 =>
      (Constraint.admits_atLeast_iff (by decide)).mpr (Nat.cast_zero.trans_le h0)
    have hhigh : ∀ {n : Number} {k : Nat}, k < Nat.pow 2 53 → n.value ≤ k →
        (Constraint.bound .atMost (OfNat.ofNat k)).admits (.number n) = true := fun hk hn =>
      (Constraint.admits_atMost_iff hk).mpr hn
    have hnumber : ∀ n, (Constraint.kind .number).admits (.number n) = true :=
      fun n => Constraint.admits_number_iff.mpr ⟨n, rfl⟩
    have hstring : ∀ s, (Constraint.kind .string).admits (.string s) = true :=
      fun s => Constraint.admits_string_iff.mpr ⟨s, rfl⟩
    simp only [rules, Rule.range, List.cons_append, List.nil_append, List.forall_mem_cons]
    refine ⟨hat h.bits_found (hnumber bits), hat h.bits_found (hlow h.bits_range.1),
      hat h.bits_found (hhigh (k := 3) (by decide) ?_), hat h.id_found (hlow h.id_range.1),
      hat h.id_found (hhigh (k := 4294967295) (by decide) ?_), hat h.id_found (hnumber id),
      hat htext (hstring text), hat htext' (hstring text'), List.forall_mem_nil _⟩
    · exact h.bits_range.2.trans_eq Nat.cast_ofNat.symm
    · exact h.id_range.2.trans_eq Nat.cast_ofNat.symm
  · have hhas : ∀ {name : String} {v : Json}, Object.field? entry name = some v →
        Object.has entry name = true := fun hv => by rw [Object.has, hv]; rfl
    simp only [fields, List.forall_mem_cons]
    exact ⟨hhas h.bits_found, hhas h.id_found, hhas htext, hhas htext', List.forall_mem_nil _⟩

/-- An entry that spells a write is read as that write. -/
theorem ofJson? (h : Spells entry bits id address data) :
    ∃ r : Fitting, ofJson? (.object entry) = some r ∧
      r.val.width.index.toNat = ⌊bits.value⌋₊ ∧ r.val.id.toNat = ⌊id.value⌋₊ ∧
      r.val.address.toNat = address ∧ r.val.data.toNat = data % r.val.width.size := by
  obtain ⟨haddress, hdata⟩ := h.texts
  have hword : ∀ {name : String} {n : Number}, Object.field? entry name = some (.number n) →
      Object.word? entry name = some n.toDouble.toWord := fun hn => by rw [Object.word?, hn]; rfl
  have hbits : bits.toDouble.toWord.toNat = ⌊bits.value⌋₊ := by
    refine bits.toNat_toWord h.bits_range.1 (h.bits_range.2.trans ?_)
    norm_num
  have hid : id.toDouble.toWord.toNat = ⌊id.value⌋₊ :=
    id.toNat_toWord h.id_range.1 (h.id_range.2.trans_eq Nat.cast_ofNat.symm)
  have hindex : bits.toDouble.toWord.toNat ≤ 3 :=
    hbits ▸ Nat.floor_le_of_le (h.bits_range.2.trans_eq Nat.cast_ofNat.symm)
  obtain ⟨width, hwidth⟩ := Option.isSome_iff_exists.mp (isSome_ofIndex? hindex)
  have hwidthIndex : width.index = bits.toDouble.toWord := by
    simpa using List.find?_some hwidth
  refine ⟨⟨⟨width, id.toDouble.toWord, UInt64.ofNat address,
    width.truncate (UInt64.ofNat data)⟩, width.toNat_truncate_lt _⟩, ?_, ?_, hid, ?_, ?_⟩
  · simp only [RegisterWrite.ofJson?, Json.object?, Option.bind_some, ofEntry?,
      hword h.bits_found, hword h.id_found, haddress, hdata, hwidth]
    rfl
  · exact hwidthIndex ▸ hbits
  · exact UInt64.toNat_ofNat_of_lt' h.address_lt
  · rw [Width.toNat_truncate, UInt64.toNat_ofNat_of_lt' h.data_lt]

end Spells

/-- **The language of entries and what it means.**  An entry is accepted if and only if it spells a
width, an id, an address and data.  Then it is read as the write of these: the width and the id are
the integer parts of the numbers that are given, the address is what is denoted, and so is the
data, as far as there is room for it.  What is shown of a write is accepted, and is read as that
write. -/
theorem entries_language {v : Json} (hsorted : v.Sorted) :
    (checkEntry v = .ok () ↔ ∃ entry bits id address data,
      v = .object entry ∧ Spells entry bits id address data) ∧
    (∀ entry bits id address data, v = .object entry → Spells entry bits id address data →
      ∃ r : Fitting, RegisterWrite.ofJson? v = some r ∧
        r.val.width.index.toNat = ⌊bits.value⌋₊ ∧ r.val.id.toNat = ⌊id.value⌋₊ ∧
        r.val.address.toNat = address ∧ r.val.data.toNat = data % r.val.width.size) ∧
    ∀ r : Fitting, checkEntry (toJson r.val) = .ok () ∧
      RegisterWrite.ofJson? (toJson r.val) = some r := by
  refine ⟨⟨fun h => ?_, ?_⟩, ?_, fun r => ⟨?_, ?_⟩⟩
  · cases v with
    | object entry =>
        obtain ⟨bits, id, address, data, hspells⟩ := spells_of_checkEntry h
        exact ⟨entry, bits, id, address, data, rfl, hspells⟩
    | _ => cases h
  · rintro ⟨entry, bits, id, address, data, rfl, hspells⟩
    exact hspells.checkEntry hsorted.nodup
  · rintro entry bits id address data rfl hspells
    exact hspells.ofJson?
  · exact checkEntry_of_same (Json.same_self _)
  · exact ofJson?_of_same (Json.same_self _)

/-- A fraction, a mark with a sign after it and zeros in front: the width is that of the integer
part, and the data is cut down to it. -/
theorem entries_language_cut :
    let half : Double := (Double.ofRatio? false 3 2).getD Finite.zero
    let entry : Object := [("address", .string "0X+ffff"), ("bit_length", .number (.double half)),
      ("data", .string "+0070000"), ("id", .word 4294967295)]
    (Json.object entry).Sorted ∧
      (∃ bits id address data, Spells entry bits id address data) ∧
      (RegisterWrite.ofJson? (.object entry)).map Subtype.val =
        some ⟨.bits16, 4294967295, 65535, 4464⟩ := by
  intro half entry
  have hascending : Object.Ascending entry := by
    simp only [entry, Object.Ascending, List.pairwise_cons]
    decide
  have hsorted : (Json.object entry).Sorted := by
    rw [Json.Sorted]
    exact ⟨hascending, by simp [entry, Json.SortedMembers, Json.Sorted, Json.word]⟩
  have hcheck : checkEntry (.object entry) = .ok () := by decide +kernel
  obtain ⟨entry', bits, id, address, data, heq, hspells⟩ := (entries_language hsorted).1.mp hcheck
  cases heq
  exact ⟨hsorted, ⟨bits, id, address, data, hspells⟩, by decide +kernel⟩

end RegisterWrite

end DeviceConfig
