/-
What is written is read back.

The text of a value is read in the same two steps as any other text.  First the characters make up
a `Written`: strings come back character by character, and numbers as the numerals that they were
written as.  Then that has a value, which is the one that was written, as long as keys ascend and
nothing is nested too deep.

There is one exception.  The reader rounds the digits of a number and then their power of ten, so
a double may come back as one of its neighbours.  `Json.reread?` is a value with each number
replaced by what comes back for it, and only the doubles in a value decide whether that is the
value itself.
-/
import DeviceConfig.Proofs.Nesting
import DeviceConfig.Proofs.RoundTrip
import DeviceConfig.Proofs.Serialization

namespace DeviceConfig

/-! ### Numbers -/

namespace Numeral

theorem digitValue_digitChar {n : Nat} (hn : n < 10) : digitValue n.digitChar = n := by
  have hall : ∀ m < 10, digitValue (Nat.digitChar m) = m := by decide
  exact hall n hn

theorem absorb_append {significand next : Nat} {digits : List Char}
    (h : absorb significand digits = (next, [])) (more : List Char) :
    absorb significand (digits ++ more) = absorb next more := by
  induction digits generalizing significand with
  | nil => rw [List.nil_append, (Prod.mk.inj h).1]
  | cons c digits ih =>
      rw [List.cons_append, absorb]
      rw [absorb] at h
      split
      next hfits =>
        rw [if_pos hfits] at h
        exact ih h
      next hfits =>
        rw [if_neg hfits] at h
        cases (Prod.mk.inj h).2

/-- The digits of a number within 64 bits are all absorbed. -/
theorem absorb_toDigits {n : Nat} (hn : n < UInt64.size) :
    absorb 0 (Nat.toDigits 10 n) = (n, []) := by
  induction n using Nat.strongRecOn with
  | _ n ih =>
    by_cases hsmall : n < 10
    · rw [Nat.toDigits_of_lt_base hsmall]
      simp [absorb, digitValue_digitChar hsmall, hn]
    · have hle : 10 ≤ n := Nat.le_of_not_lt hsmall
      have hdigit : digitValue (n % 10).digitChar = n % 10 := digitValue_digitChar (by omega)
      rw [Nat.toDigits_of_base_le (by decide) hle,
        absorb_append (ih (n / 10) (by omega) (by omega))]
      simp [absorb, hdigit, Nat.div_add_mod, hn]

end Numeral

namespace Number

/-- What comes back for a number that has been written. -/
def reread? (n : Number) : Option Number := (Numeral.read? n.token).bind fun (m, _) => m.value?

/-- What comes back has the value of the numeral that was written. -/
theorem reread?_of_spelling {n : Number} {m : Numeral} (hm : m.WellFormed)
    (htoken : n.token = m.spelling) : n.reread? = m.value? := by
  have hread := Numeral.read?_spelling hm Numeral.ends_nil
  rw [List.append_nil] at hread
  rw [reread?, htoken, hread]
  rfl

/-- A number comes back as a numeral, whatever comes after it. -/
theorem token_read (n : Number) : ∃ m : Numeral, m.value? = n.reread? ∧
    ∀ rest, Numeral.Ends rest → Numeral.read? (n.token ++ rest) = some (m, rest) := by
  obtain ⟨m, hm, htoken⟩ := n.token_spelled
  exact ⟨m, (reread?_of_spelling hm htoken).symm,
    fun rest hrest => htoken ▸ Numeral.read?_spelling hm hrest⟩

theorem token_cons (n : Number) : ∃ c cs, n.token = c :: cs ∧ Numeral.Opens c := by
  obtain ⟨m, hm, htoken⟩ := n.token_spelled
  rw [htoken]
  exact Numeral.spelling_cons hm

theorem value?_wholeNumeral (k : Int)
    (hk : -0x8000000000000000 ≤ k ∧ k < 0x10000000000000000) :
    (wholeNumeral k).value? = some (integer k hk) := by
  have hsize : k.natAbs < UInt64.size := by
    show k.natAbs < 18446744073709551616
    omega
  have habsorb := Numeral.absorb_toDigits hsize
  have hvalue : (wholeNumeral k).value? =
      some (Numeral.integer (decide (k < 0)) k.natAbs) := by
    simp [Numeral.value?, wholeNumeral, habsorb]
  have hfits : ofInt? k = some (integer k hk) := dif_pos hk
  rw [hvalue]
  unfold Numeral.integer
  by_cases hneg : k < 0
  · have hzero : k.natAbs ≠ 0 := by omega
    have hback : -(k.natAbs : Int) = k := by omega
    rw [decide_eq_true hneg, if_pos rfl, if_neg hzero, hback, hfits]
    rfl
  · have hback : (k.natAbs : Int) = k := by omega
    rw [decide_eq_false hneg, if_neg Bool.false_ne_true, hback, hfits]
    rfl

/-- Whole numbers within 64 bits come back. -/
theorem reread?_integer (k : Int) (hk : -0x8000000000000000 ≤ k ∧ k < 0x10000000000000000) :
    (integer k hk).reread? = some (integer k hk) :=
  (reread?_of_spelling (wellFormed_wholeNumeral k) (token_integer k hk)).trans
    (value?_wholeNumeral k hk)

end Number

/-- A double comes back as itself. -/
def Double.ReadsBack (x : Double) : Prop := (Number.double x).reread? = some (.double x)

instance (x : Double) : Decidable x.ReadsBack :=
  inferInstanceAs (Decidable ((Number.double x).reread? = some (.double x)))

/-! ### Strings -/

namespace Written

theorem unit?_hexDigit {n : Nat} (hn : n < 0x20) :
    unit? '0' '0' (Json.hexDigit (n / 16)) (Json.hexDigit (n % 16)) = some n := by
  have hall : ∀ m < 0x20,
      unit? '0' '0' (Json.hexDigit (m / 16)) (Json.hexDigit (m % 16)) = some m := by decide
  exact hall n hn

/-- A unit that is no half of a pair stands for its character, whatever comes after it. -/
theorem join?_unit {n : Nat} (hn : n < 0x20) (ps : List Piece) :
    join? (.unit n :: ps) = (join? ps).map (Char.ofNat n :: ·) := by
  have hhigh : isHigh n = false := by simp [isHigh]; omega
  have hlow : isLow n = false := by simp [isLow]; omega
  cases ps with
  | nil => simp [join?, hhigh, hlow]
  | cons p ps => cases p <;> simp [join?, hhigh, hlow]

/-- A character that has been escaped is one piece, which stands for it. -/
theorem pieces?_escape (c : Char) : ∃ p : Piece,
    (∀ text, pieces? (Json.escape c ++ text) = (pieces? text).map fun (ps, rest) =>
      (p :: ps, rest)) ∧
    ∀ ps, join? (p :: ps) = (join? ps).map (c :: ·) := by
  rcases Json.escape_cases c with
    ⟨e, he, hescape, hc⟩ | ⟨hc, hescape⟩ | ⟨hquote, hslash, hc, hescape⟩
  · refine ⟨.char c, fun text => ?_, fun ps => by rw [join?]⟩
    rw [hescape]
    have hunit : e ≠ 'u' := by
      rintro rfl
      cases hc
    show pieces? ('\\' :: e :: text) = _
    rw [pieces?, hc]
    · cases pieces? text <;> rfl
    · exact fun _ _ _ _ _ h => absurd h hunit
  · refine ⟨.unit c.toNat, fun text => ?_, fun ps => ?_⟩
    · rw [hescape]
      show pieces? ('\\' :: 'u' :: '0' :: '0' :: Json.hexDigit (c.toNat / 16) ::
        Json.hexDigit (c.toNat % 16) :: text) = _
      rw [pieces?, unit?_hexDigit hc]
      cases pieces? text <;> rfl
    · rw [join?_unit hc, Char.ofNat_toNat]
  · refine ⟨.char c, fun text => ?_, fun ps => by rw [join?]⟩
    rw [hescape]
    show pieces? (c :: text) = _
    rw [pieces?, if_neg (by omega)]
    · exact hquote
    · exact fun _ _ _ _ _ h => absurd h hslash
    · exact fun _ _ h => absurd h hslash

/-- The characters of a string come back, up to its closing quote. -/
theorem pieces?_flatMap_escape (cs text : List Char) : ∃ ps,
    pieces? (cs.flatMap Json.escape ++ '"' :: text) = some (ps, text) ∧
      join? ps = some cs := by
  induction cs with
  | nil => exact ⟨[], by rw [List.flatMap_nil, List.nil_append, pieces?], rfl⟩
  | cons c cs ih =>
      obtain ⟨ps, hpieces, hjoin⟩ := ih
      obtain ⟨p, hp, hc⟩ := pieces?_escape c
      refine ⟨p :: ps, ?_, by rw [hc, hjoin]; rfl⟩
      rw [List.flatMap_cons, List.append_assoc, hp, hpieces]
      rfl

/-- **A string comes back, whatever its characters are.** -/
theorem string?_quoted (s : String) (text : List Char) :
    string? (s.toList.flatMap Json.escape ++ '"' :: text) = some (some s, text) := by
  obtain ⟨ps, hpieces, hjoin⟩ := pieces?_flatMap_escape s.toList text
  rw [string?, hpieces]
  simp [hjoin]

/-! ### One step of the reader -/

theorem skipBlank_cons {c : Char} (hc : isBlank c = false) (text : List Char) :
    skipBlank (c :: text) = c :: text := by
  simp [skipBlank, hc]

theorem quoted_append (s : String) (text : List Char) :
    Json.quoted s ++ text = '"' :: (s.toList.flatMap Json.escape ++ '"' :: text) := by
  simp [Json.quoted]

theorem item?_string (fuel : Nat) (s : String) (text : List Char) :
    item? (fuel + 1) (Json.quoted s ++ text) = some (.string (some s), text) := by
  rw [quoted_append, item?, skipBlank_cons rfl]
  simp [string?_quoted]

/-- No numeral starts with a blank. -/
theorem isBlank_of_opens {c : Char} (hc : Numeral.Opens c) : isBlank c = false := by
  have hblanks : ∀ d ∈ [' ', '\t', '\n', '\r'], d.isDigit = false ∧ d ≠ '-' := by simp
  have hother := fun d hd => Numeral.ne_of_opens hc (hblanks d hd)
  simp only [List.forall_mem_cons] at hother
  obtain ⟨hspace, htab, hline, hreturn, -⟩ := hother
  simp [isBlank, hspace, htab, hline, hreturn]

/-- A text that starts like a number is read as one. -/
theorem item?_numeral (fuel : Nat) {c : Char} (hc : Numeral.Opens c)
    (text : List Char) :
    item? (fuel + 1) (c :: text) =
      (Numeral.read? (c :: text)).map fun (n, rest) => (.numeral n, rest) := by
  have hothers : ∀ d ∈ ['"', '[', '\x7b', 'n', 't', 'f'], d.isDigit = false ∧ d ≠ '-' := by simp
  have hother := fun d hd => Numeral.ne_of_opens hc (hothers d hd)
  simp only [List.forall_mem_cons] at hother
  obtain ⟨hquote, hbracket, hbrace, hn, ht, hf, -⟩ := hother
  rw [item?, skipBlank_cons (isBlank_of_opens hc)]
  simp [hquote, hbracket, hbrace, hn, ht, hf]

theorem item?_array_nil (fuel : Nat) (text : List Char) :
    item? (fuel + 1) ('[' :: ']' :: text) = some (.array [], text) := by
  rw [item?, skipBlank_cons rfl]
  simp [skipBlank_cons (c := ']') rfl]

theorem item?_array (fuel : Nat) {c : Char} (hc : isBlank c = false ∧ c ≠ ']')
    (text : List Char) :
    item? (fuel + 1) ('[' :: c :: text) =
      (items? fuel (c :: text)).map fun (xs, rest) => (.array xs, rest) := by
  rw [item?, skipBlank_cons rfl]
  simp [skipBlank_cons hc.1, hc.2]

theorem item?_object_nil (fuel : Nat) (text : List Char) :
    item? (fuel + 1) ('\x7b' :: '\x7d' :: text) = some (.object [], text) := by
  rw [item?, skipBlank_cons rfl]
  simp [skipBlank_cons (c := '\x7d') rfl]

theorem item?_object (fuel : Nat) (text : List Char) :
    item? (fuel + 1) ('\x7b' :: '"' :: text) =
      (members? fuel ('"' :: text)).map fun (xs, rest) => (.object xs, rest) := by
  rw [item?, skipBlank_cons rfl]
  simp [skipBlank_cons (c := '"') rfl]

/-- One item and a comma, with more items behind it. -/
theorem items?_cons {fuel : Nat} {text rest : List Char} {x : Written}
    (h : item? fuel text = some (x, ',' :: rest)) :
    items? (fuel + 1) text = (items? fuel rest).map fun (xs, rest) => (x :: xs, rest) := by
  rw [items?, h]
  simp only [Option.bind_eq_bind, Option.bind_some, skipBlank_cons (c := ',') rfl]
  cases items? fuel rest <;> rfl

/-- The last item. -/
theorem items?_last {fuel : Nat} {text rest : List Char} {x : Written}
    (h : item? fuel text = some (x, ']' :: rest)) :
    items? (fuel + 1) text = some ([x], rest) := by
  rw [items?, h]
  simp only [Option.bind_eq_bind, Option.bind_some, skipBlank_cons (c := ']') rfl]

/-- One member and a comma, with more members behind it. -/
theorem members?_cons {fuel : Nat} {key : String} {text rest : List Char} {x : Written}
    (h : item? fuel text = some (x, ',' :: rest)) :
    members? (fuel + 1) (Json.quoted key ++ ':' :: text) =
      (members? fuel rest).map fun (xs, rest) => ((some key, x) :: xs, rest) := by
  rw [quoted_append, members?, skipBlank_cons rfl]
  simp only [string?_quoted, Option.bind_eq_bind, Option.bind_some,
    skipBlank_cons (c := ':') rfl, h, skipBlank_cons (c := ',') rfl]
  cases members? fuel rest <;> rfl

/-- The last member. -/
theorem members?_last {fuel : Nat} {key : String} {text rest : List Char} {x : Written}
    (h : item? fuel text = some (x, '\x7d' :: rest)) :
    members? (fuel + 1) (Json.quoted key ++ ':' :: text) = some ([(some key, x)], rest) := by
  rw [quoted_append, members?, skipBlank_cons rfl]
  simp only [string?_quoted, Option.bind_eq_bind, Option.bind_some,
    skipBlank_cons (c := ':') rfl, h, skipBlank_cons (c := '\x7d') rfl]

end Written

/-! ### Values that come back -/

namespace Json

mutual

/-- What comes back for a value that has been written. -/
def reread? : Json → Option Json
  | .null => some .null
  | .bool b => some (.bool b)
  | .number n => n.reread?.map .number
  | .string s => some (.string s)
  | .array items => (rereadItems? items).map .array
  | .object members => (rereadMembers? members).map .object

/-- What comes back for some items. -/
def rereadItems? : List Json → Option (List Json)
  | [] => some []
  | x :: xs => do
    let y ← x.reread?
    let ys ← rereadItems? xs
    some (y :: ys)

/-- What comes back for some members. -/
def rereadMembers? : List (String × Json) → Option (List (String × Json))
  | [] => some []
  | (k, x) :: xs => do
    let y ← x.reread?
    let ys ← rereadMembers? xs
    some ((k, y) :: ys)

end

mutual

/-- The doubles in a value. -/
def doubles : Json → List Double
  | .number (.double x) => [x]
  | .array items => doublesOfItems items
  | .object members => doublesOfMembers members
  | _ => []

/-- The doubles in some items. -/
def doublesOfItems : List Json → List Double
  | [] => []
  | x :: xs => x.doubles ++ doublesOfItems xs

/-- The doubles in some members. -/
def doublesOfMembers : List (String × Json) → List Double
  | [] => []
  | (_, x) :: xs => x.doubles ++ doublesOfMembers xs

end

mutual

/-- Only doubles keep a value from coming back as itself. -/
theorem reread?_eq_self : ∀ v : Json, v.reread? = some v ↔ ∀ x ∈ v.doubles, x.ReadsBack
  | .null => by simp [reread?, doubles]
  | .bool b => by simp [reread?, doubles]
  | .number (.integer k hk) => by simp [reread?, doubles, Number.reread?_integer]
  | .number (.double x) => by simp [reread?, doubles, Double.ReadsBack]
  | .string s => by simp [reread?, doubles]
  | .array items => by simpa [reread?, doubles] using rereadItems?_eq_self items
  | .object members => by simpa [reread?, doubles] using rereadMembers?_eq_self members

theorem rereadItems?_eq_self : ∀ items : List Json,
    rereadItems? items = some items ↔ ∀ x ∈ doublesOfItems items, x.ReadsBack
  | [] => by simp [rereadItems?, doublesOfItems]
  | x :: xs => by
      have hx := reread?_eq_self x
      have hxs := rereadItems?_eq_self xs
      simp only [rereadItems?, doublesOfItems, List.mem_append, or_imp, forall_and, ← hx, ← hxs,
        Option.bind_eq_bind, Option.bind_eq_some_iff, Option.some.injEq, List.cons.injEq]
      constructor
      · rintro ⟨y, hy, ys, hys, rfl, rfl⟩
        exact ⟨hy, hys⟩
      · rintro ⟨hy, hys⟩
        exact ⟨x, hy, xs, hys, rfl, rfl⟩

theorem rereadMembers?_eq_self : ∀ members : List (String × Json),
    rereadMembers? members = some members ↔ ∀ x ∈ doublesOfMembers members, x.ReadsBack
  | [] => by simp [rereadMembers?, doublesOfMembers]
  | (k, x) :: xs => by
      have hx := reread?_eq_self x
      have hxs := rereadMembers?_eq_self xs
      simp only [rereadMembers?, doublesOfMembers, List.mem_append, or_imp, forall_and, ← hx,
        ← hxs, Option.bind_eq_bind, Option.bind_eq_some_iff, Option.some.injEq, List.cons.injEq,
        Prod.mk.injEq, true_and]
      constructor
      · rintro ⟨y, hy, ys, hys, rfl, rfl⟩
        exact ⟨hy, hys⟩
      · rintro ⟨hy, hys⟩
        exact ⟨x, hy, xs, hys, rfl, rfl⟩

end

/-- One eleventh has sixteen digits, which is one too many for the reader. -/
example : ¬ ((Double.ofRatio? false 1 11).getD 0).ReadsBack := by decide +kernel

theorem keys_of_rereadMembers? {members back : List (String × Json)}
    (h : rereadMembers? members = some back) : back.map Prod.fst = members.map Prod.fst := by
  induction members generalizing back with
  | nil =>
      obtain rfl := Option.some.inj h
      rfl
  | cons m ms ih =>
      obtain ⟨y, -, h⟩ := Option.bind_eq_some_iff.mp h
      obtain ⟨ys, hys, h⟩ := Option.bind_eq_some_iff.mp h
      obtain rfl := Option.some.inj h
      rw [List.map_cons, List.map_cons, ih hys]

/-- Members that come back have ascending keys if they had them before. -/
theorem map_ofMembers_rereadMembers? {members : List (String × Json)}
    (h : Object.Ascending members) :
    (rereadMembers? members).map ofMembers = (rereadMembers? members).map .object := by
  cases hback : rereadMembers? members with
  | none => rfl
  | some back =>
      have hkeys : Object.Ascending back := by
        rw [Object.ascending_iff_keys, keys_of_rereadMembers? hback]
        exact Object.ascending_iff_keys.mp h
      exact congrArg (some ∘ Json.object) (Object.ofList_of_ascending hkeys)

end Json

/-! ### A whole text -/

namespace Written

theorem ends_cons {c : Char} (hc : c.isDigit = false ∧ c ≠ '.' ∧ c ≠ 'e' ∧ c ≠ 'E')
    (text : List Char) : Numeral.Ends (c :: text) := by
  rintro d rest h
  rw [← (List.cons.inj h).1]
  exact hc

/-- A value is read as something that has the value that comes back.  Two steps for each
character are enough. -/
structure Spells (v : Json) (w : Written) : Prop where
  item : ∀ fuel text, 2 * v.tokens.flatten.length ≤ fuel + 1 → Numeral.Ends text →
    item? (fuel + 1) (v.tokens.flatten ++ text) = some (w, text)
  value : ∀ limit, v.Legible limit → value? limit w = v.reread?

/-- Items with commas between them are read up to the closing bracket. -/
structure SpellsItems (xs : List Json) (ws : List Written) : Prop where
  items : ∀ fuel text, 2 * (Json.itemTokens true xs).flatten.length ≤ fuel →
    items? (fuel + 1) ((Json.itemTokens true xs).flatten ++ ']' :: text) = some (ws, text)
  values : ∀ limit, (∀ x ∈ xs, x.Legible limit) → values? limit ws = Json.rereadItems? xs

/-- Members with commas between them are read up to the closing brace. -/
structure SpellsMembers (xs : List (String × Json)) (ws : List (Option String × Written)) :
    Prop where
  members : ∀ fuel text, 2 * (Json.memberTokens true xs).flatten.length ≤ fuel →
    members? (fuel + 1) ((Json.memberTokens true xs).flatten ++ '\x7d' :: text) = some (ws, text)
  values : ∀ limit, (∀ m ∈ xs, m.2.Legible limit) →
    memberValues? limit ws = Json.rereadMembers? xs

/-- No value starts with a blank or a closing bracket. -/
theorem tokens_cons (v : Json) :
    ∃ c cs, v.tokens.flatten = c :: cs ∧ isBlank c = false ∧ c ≠ ']' := by
  cases v with
  | null => exact ⟨'n', _, rfl, by decide⟩
  | bool b => cases b <;> exact ⟨_, _, rfl, by decide⟩
  | number n =>
      obtain ⟨c, cs, hcs, hc⟩ := n.token_cons
      refine ⟨c, cs, by simpa [Json.tokens] using hcs, isBlank_of_opens hc, ?_⟩
      exact Numeral.ne_of_opens hc (by simp)
  | string s =>
      refine ⟨'"', s.toList.flatMap Json.escape ++ ['"'], ?_, by decide⟩
      simp [Json.tokens, Json.quoted]
  | array items => exact ⟨'[', _, Json.flatten_array items, by decide⟩
  | object members => exact ⟨'\x7b', _, Json.flatten_object members, by decide⟩

theorem tokens_length_pos (v : Json) : 0 < v.tokens.flatten.length :=
  List.length_pos_iff.mpr v.flatten_tokens_ne_nil

/-! Values that are not containers. -/

theorem spells_null : Spells .null .null where
  item _ _ _ _ := rfl
  value _ _ := rfl

theorem spells_bool (b : Bool) : Spells (.bool b) (.bool b) where
  item _ _ _ _ := by cases b <;> rfl
  value _ _ := rfl

theorem spells_number (n : Number) : ∃ m, Spells (.number n) (.numeral m) := by
  obtain ⟨m, hvalue, hread⟩ := n.token_read
  obtain ⟨c, cs, htoken, hc⟩ := n.token_cons
  refine ⟨m, fun fuel text _ htext => ?_, fun limit _ => congrArg (Option.map Json.number) hvalue⟩
  have hflatten : (Json.tokens (.number n)).flatten = n.token := by simp [Json.tokens]
  have hnumeral := item?_numeral fuel hc (cs ++ text)
  rw [← List.cons_append, ← htoken, hread text htext] at hnumeral
  rw [hflatten]
  exact hnumeral

theorem spells_string (s : String) : Spells (.string s) (.string (some s)) where
  item fuel text _ _ := by
    have hflatten : (Json.tokens (.string s)).flatten = Json.quoted s := by simp [Json.tokens]
    rw [hflatten]
    exact item?_string fuel s text
  value _ _ := rfl

/-! Containers, from what they contain. -/

/-- After the first item come a comma and the others. -/
theorem flatten_itemTokens_false (x : Json) (xs : List Json) :
    (Json.itemTokens false (x :: xs)).flatten =
      ',' :: (Json.itemTokens true (x :: xs)).flatten := by
  simp [Json.itemTokens, Json.comma]

theorem flatten_memberTokens_false (m : String × Json) (ms : List (String × Json)) :
    (Json.memberTokens false (m :: ms)).flatten =
      ',' :: (Json.memberTokens true (m :: ms)).flatten := by
  simp [Json.memberTokens, Json.comma]

theorem SpellsItems.single {x : Json} {w : Written} (hx : Spells x w) : SpellsItems [x] [w] where
  items fuel text hfuel := by
    have hflatten : (Json.itemTokens true [x]).flatten = x.tokens.flatten := by
      simp [Json.itemTokens, Json.comma]
    have hpos := tokens_length_pos x
    rw [hflatten] at hfuel ⊢
    obtain ⟨fuel, rfl⟩ : ∃ f, fuel = f + 1 := ⟨fuel - 1, by omega⟩
    exact items?_last (hx.item fuel (']' :: text) (by omega) (ends_cons (by decide) text))
  values limit h := by
    have hvalue := hx.value limit (h x List.mem_cons_self)
    simp only [values?, Json.rereadItems?, hvalue]

theorem SpellsItems.cons {x y : Json} {xs : List Json} {w : Written} {ws : List Written}
    (hx : Spells x w) (hxs : SpellsItems (y :: xs) ws) :
    SpellsItems (x :: y :: xs) (w :: ws) where
  items fuel text hfuel := by
    let others := (Json.itemTokens true (y :: xs)).flatten
    have hflatten : (Json.itemTokens true (x :: y :: xs)).flatten =
        x.tokens.flatten ++ ',' :: others := by
      rw [Json.flatten_itemTokens, flatten_itemTokens_false]
      rfl
    rw [hflatten, List.length_append, List.length_cons] at hfuel
    rw [hflatten, List.append_assoc, List.cons_append]
    obtain ⟨fuel, rfl⟩ : ∃ f, fuel = f + 1 := ⟨fuel - 1, by omega⟩
    have hothers : 2 * others.length ≤ fuel := by omega
    rw [items?_cons (hx.item fuel (',' :: (others ++ ']' :: text)) (by omega)
      (ends_cons (by decide) _)), hxs.items fuel text hothers]
    rfl
  values limit h := by
    have hvalue := hx.value limit (h x List.mem_cons_self)
    have hvalues := hxs.values limit fun z hz => h z (List.mem_cons_of_mem x hz)
    rw [values?, Json.rereadItems?, hvalue, hvalues]

theorem SpellsMembers.single {k : String} {x : Json} {w : Written} (hx : Spells x w) :
    SpellsMembers [(k, x)] [(some k, w)] where
  members fuel text hfuel := by
    have hflatten : (Json.memberTokens true [(k, x)]).flatten =
        Json.quoted k ++ ':' :: x.tokens.flatten := by
      simp [Json.memberTokens, Json.comma]
    rw [hflatten, List.length_append, List.length_cons] at hfuel
    rw [hflatten, List.append_assoc]
    obtain ⟨fuel, rfl⟩ : ∃ f, fuel = f + 1 := ⟨fuel - 1, by omega⟩
    exact members?_last (hx.item fuel ('\x7d' :: text) (by omega) (ends_cons (by decide) text))
  values limit h := by
    have hvalue := hx.value limit (h (k, x) List.mem_cons_self)
    simp only [memberValues?, Json.rereadMembers?, hvalue, Option.bind_eq_bind, Option.bind_some]

theorem SpellsMembers.cons {k : String} {x : Json} {m : String × Json}
    {ms : List (String × Json)} {w : Written} {ws : List (Option String × Written)}
    (hx : Spells x w) (hms : SpellsMembers (m :: ms) ws) :
    SpellsMembers ((k, x) :: m :: ms) ((some k, w) :: ws) where
  members fuel text hfuel := by
    let others := (Json.memberTokens true (m :: ms)).flatten
    have hflatten : (Json.memberTokens true ((k, x) :: m :: ms)).flatten =
        Json.quoted k ++ ':' :: (x.tokens.flatten ++ ',' :: others) := by
      rw [Json.flatten_memberTokens, flatten_memberTokens_false]
      rfl
    rw [hflatten, List.length_append, List.length_cons, List.length_append,
      List.length_cons] at hfuel
    have hsplit : Json.quoted k ++ ':' :: (x.tokens.flatten ++ ',' :: others) ++
        '\x7d' :: text = Json.quoted k ++ ':' :: (x.tokens.flatten ++
          ',' :: (others ++ '\x7d' :: text)) := by simp
    rw [hflatten, hsplit]
    obtain ⟨fuel, rfl⟩ : ∃ f, fuel = f + 1 := ⟨fuel - 1, by omega⟩
    have hothers : 2 * others.length ≤ fuel := by omega
    rw [members?_cons (hx.item fuel (',' :: (others ++ '\x7d' :: text)) (by omega)
      (ends_cons (by decide) _)), hms.members fuel text hothers]
    rfl
  values limit h := by
    have hvalue := hx.value limit (h (k, x) List.mem_cons_self)
    have hvalues := hms.values limit fun n hn => h n (List.mem_cons_of_mem _ hn)
    simp only [memberValues?, Json.rereadMembers?, hvalue, hvalues, Option.bind_eq_bind,
      Option.bind_some]

theorem spells_array_nil : Spells (.array []) (.array []) where
  item fuel text _ _ := item?_array_nil fuel text
  value limit h := by
    cases limit with
    | zero => exact absurd h.depth (Nat.not_succ_le_zero _)
    | succ limit => rfl

theorem spells_object_nil : Spells (.object []) (.object []) where
  item fuel text _ _ := item?_object_nil fuel text
  value limit h := by
    cases limit with
    | zero => exact absurd h.depth (Nat.not_succ_le_zero _)
    | succ limit => rfl

theorem spells_array {x : Json} {xs : List Json} {ws : List Written}
    (h : SpellsItems (x :: xs) ws) : Spells (.array (x :: xs)) (.array ws) where
  item fuel text hfuel _ := by
    obtain ⟨c, cs, hcs, hc⟩ := tokens_cons x
    have hfirst : (Json.itemTokens true (x :: xs)).flatten =
        c :: (cs ++ (Json.itemTokens false xs).flatten) := by
      rw [Json.flatten_itemTokens, hcs]
      rfl
    rw [Json.flatten_array, List.length_cons, List.length_append] at hfuel
    obtain ⟨fuel, rfl⟩ : ∃ f, fuel = f + 1 := ⟨fuel - 1, by omega⟩
    have hitems := h.items fuel text (by omega)
    have harray := item?_array (fuel + 1) hc
      (cs ++ (Json.itemTokens false xs).flatten ++ ']' :: text)
    rw [← List.cons_append, ← hfirst, hitems] at harray
    rw [Json.flatten_array, List.cons_append, List.append_assoc]
    exact harray
  value limit hlegible := by
    cases limit with
    | zero => exact absurd hlegible.depth (Nat.not_succ_le_zero _)
    | succ limit =>
        show (values? limit ws).map Json.array = _
        rw [h.values limit (Json.legible_array.mp hlegible), Json.reread?]

theorem spells_object {m : String × Json} {ms : List (String × Json)}
    {ws : List (Option String × Written)} (h : SpellsMembers (m :: ms) ws) :
    Spells (.object (m :: ms)) (.object ws) where
  item fuel text hfuel _ := by
    obtain ⟨cs, hfirst⟩ : ∃ cs, (Json.memberTokens true (m :: ms)).flatten = '"' :: cs :=
      ⟨_, Json.flatten_memberTokens true m.1 m.2 ms⟩
    rw [Json.flatten_object, List.length_cons, List.length_append] at hfuel
    obtain ⟨fuel, rfl⟩ : ∃ f, fuel = f + 1 := ⟨fuel - 1, by omega⟩
    have hmembers := h.members fuel text (by omega)
    have hobject := item?_object (fuel + 1) (cs ++ '\x7d' :: text)
    rw [← List.cons_append, ← hfirst, hmembers] at hobject
    rw [Json.flatten_object, List.cons_append, List.append_assoc]
    exact hobject
  value limit hlegible := by
    cases limit with
    | zero => exact absurd hlegible.depth (Nat.not_succ_le_zero _)
    | succ limit =>
        obtain ⟨hkeys, hmembers⟩ := Json.legible_object.mp hlegible
        show (memberValues? limit ws).map Json.ofMembers = _
        rw [h.values limit hmembers, Json.map_ofMembers_rereadMembers? hkeys, Json.reread?]

mutual

/-- The text of a value is read as something that has the value that comes back. -/
theorem spells_tokens : ∀ v : Json, ∃ w, Spells v w
  | .null => ⟨_, spells_null⟩
  | .bool b => ⟨_, spells_bool b⟩
  | .number n => by
      obtain ⟨m, hm⟩ := spells_number n
      exact ⟨_, hm⟩
  | .string s => ⟨_, spells_string s⟩
  | .array [] => ⟨_, spells_array_nil⟩
  | .array (x :: xs) => by
      obtain ⟨ws, hws⟩ := spells_itemTokens (x :: xs) (List.cons_ne_nil x xs)
      exact ⟨_, spells_array hws⟩
  | .object [] => ⟨_, spells_object_nil⟩
  | .object (m :: ms) => by
      obtain ⟨ws, hws⟩ := spells_memberTokens (m :: ms) (List.cons_ne_nil m ms)
      exact ⟨_, spells_object hws⟩

theorem spells_itemTokens : ∀ xs : List Json, xs ≠ [] → ∃ ws, SpellsItems xs ws
  | [], h => absurd rfl h
  | [x], _ => by
      obtain ⟨w, hw⟩ := spells_tokens x
      exact ⟨_, .single hw⟩
  | x :: y :: xs, _ => by
      obtain ⟨w, hw⟩ := spells_tokens x
      obtain ⟨ws, hws⟩ := spells_itemTokens (y :: xs) (List.cons_ne_nil y xs)
      exact ⟨_, .cons hw hws⟩

theorem spells_memberTokens : ∀ ms : List (String × Json), ms ≠ [] → ∃ ws, SpellsMembers ms ws
  | [], h => absurd rfl h
  | [(k, x)], _ => by
      obtain ⟨w, hw⟩ := spells_tokens x
      exact ⟨_, .single hw⟩
  | (k, x) :: m :: ms, _ => by
      obtain ⟨w, hw⟩ := spells_tokens x
      obtain ⟨ws, hws⟩ := spells_memberTokens (m :: ms) (List.cons_ne_nil m ms)
      exact ⟨_, .cons hw hws⟩

end

end Written

/-- **What is written is read back.**  The text of a value that can be read at all gives the value
again, except for what becomes of its doubles. -/
theorem Json.ofText?_text {v : Json} (h : v.Legible Written.maxDepth) :
    Json.ofText? v.text = v.reread? := by
  obtain ⟨w, hw⟩ := Written.spells_tokens v
  have hitem := hw.item (2 * v.tokens.flatten.length + 1) [] (by omega) Numeral.ends_nil
  rw [List.append_nil] at hitem
  rw [Json.ofText?, Json.text, Written.ofText?_ofList, hitem]
  exact hw.value _ h

/-- The text of a value without doubles gives the value again. -/
theorem Json.ofText?_text_of_doubles_nil {v : Json} (h : v.Legible Written.maxDepth)
    (hdoubles : v.doubles = []) : Json.ofText? v.text = some v := by
  rw [ofText?_text h, reread?_eq_self, hdoubles]
  exact fun x hx => absurd hx List.not_mem_nil

end DeviceConfig
