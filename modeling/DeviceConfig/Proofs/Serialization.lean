/-
A value is written whole, or not at all.

The writer looks at the room that is left before each piece.  What it decides in the end depends
only on the whole text: it fits if one byte more than the text is within the bound, however the
text is cut into pieces.  So the length that is measured afterwards is never too large, and the
only error there is comes from the writer.

The terminator stands out, because no control character is ever written as itself.  And the
estimate of a value is at least what its text takes, for each sort of value, so there is always
room within it.
-/
import DeviceConfig.Json.Written
import DeviceConfig.Serialized
import DeviceConfig.Proofs.Numerals

namespace DeviceConfig

/-! ### Bytes -/

/-- Some characters as the bytes that stand for them. -/
def encoded (cs : List Char) : List UInt8 := cs.flatMap String.utf8EncodeChar

@[simp] theorem bytes_nil : bytes [] = 0 := rfl

@[simp] theorem bytes_cons (c : Char) (cs : List Char) :
    bytes (c :: cs) = c.utf8Size + bytes cs := rfl

@[simp] theorem bytes_append (cs ds : List Char) : bytes (cs ++ ds) = bytes cs + bytes ds := by
  induction cs with
  | nil => simp
  | cons c cs ih => rw [List.cons_append, bytes_cons, bytes_cons, ih, Nat.add_assoc]

theorem length_encoded (cs : List Char) : (encoded cs).length = bytes cs := by
  induction cs with
  | nil => rfl
  | cons c cs ih =>
      show (String.utf8EncodeChar c ++ encoded cs).length = _
      rw [List.length_append, String.length_utf8EncodeChar, ih, bytes_cons]

/-- The bytes of a text are those of its characters. -/
theorem toByteArray_eq_encoded (s : String) : s.toByteArray = (encoded s.toList).toByteArray := by
  have hlist := String.toByteArray_ofList (l := s.toList)
  rwa [String.ofList_toList] at hlist

/-- The size of a text is counted by its characters. -/
theorem utf8ByteSize_eq_bytes (s : String) : s.utf8ByteSize = bytes s.toList := by
  rw [← String.size_toByteArray, toByteArray_eq_encoded, List.size_toByteArray, length_encoded]

/-- Only the character zero has a byte that is zero. -/
theorem zero_not_mem_utf8EncodeChar {c : Char} (hc : 0 < c.toNat) :
    0 ∉ String.utf8EncodeChar c := by
  have hbyte : ∀ n : Nat, n % 256 ≠ 0 → UInt8.ofNat n ≠ 0 := by
    intro n hn hzero
    have hnat := congrArg UInt8.toNat hzero
    rw [UInt8.toNat_ofNat'] at hnat
    exact hn hnat
  have hval : c.val.toNat = c.toNat := rfl
  rw [String.utf8EncodeChar.eq_1, hval]
  intro hmem
  split at hmem
  · rw [List.mem_singleton] at hmem
    exact hbyte _ (by omega) hmem.symm
  split at hmem
  · simp only [List.mem_cons, List.not_mem_nil, or_false] at hmem
    rcases hmem with h | h <;> exact hbyte _ (by omega) h.symm
  split at hmem
  · simp only [List.mem_cons, List.not_mem_nil, or_false] at hmem
    rcases hmem with h | h | h <;> exact hbyte _ (by omega) h.symm
  · simp only [List.mem_cons, List.not_mem_nil, or_false] at hmem
    rcases hmem with h | h | h | h <;> exact hbyte _ (by omega) h.symm

/-! ### The text of a value -/

/-- No control character is among some characters. -/
def Printable (cs : List Char) : Prop := ∀ c ∈ cs, 0x20 ≤ c.toNat

namespace Printable

theorem append {cs ds : List Char} (h : Printable cs) (h' : Printable ds) :
    Printable (cs ++ ds) := by
  intro c hc
  rcases List.mem_append.mp hc with hc | hc
  · exact h c hc
  · exact h' c hc

theorem cons {c : Char} {cs : List Char} (hc : 0x20 ≤ c.toNat) (h : Printable cs) :
    Printable (c :: cs) := by
  have hsingle : Printable [c] := by simpa [Printable] using hc
  exact hsingle.append h

theorem nil : Printable [] := nofun

theorem zero_not_mem {cs : List Char} (h : Printable cs) : 0 ∉ encoded cs := by
  intro hmem
  obtain ⟨c, hc, hzero⟩ := List.mem_flatMap.mp hmem
  exact zero_not_mem_utf8EncodeChar (Nat.lt_of_lt_of_le (by decide) (h c hc)) hzero

end Printable

theorem le_toNat_of_isDigit {c : Char} (h : c.isDigit = true) : 48 ≤ c.toNat := by
  have hrange : '0' ≤ c ∧ c ≤ '9' := by simpa [Char.isDigit, Char.le_def] using h
  exact hrange.1

theorem Number.printable_token (n : Number) : Printable n.token := by
  obtain ⟨m, hm, htoken⟩ := n.token_spelled
  rw [htoken]
  intro c hc
  rcases Numeral.mem_spelling hm hc with hdigit | hother
  · exact Nat.le_trans (by decide) (le_toNat_of_isDigit hdigit)
  · have hothers : Printable ['-', '+', '.', 'e'] := by simp [Printable]
    exact hothers c hother

namespace Json

/-- How a character stands in a string: with a letter that stands for it, by its number, or as
itself. -/
theorem escape_cases (c : Char) :
    (∃ e ∈ ['"', '\\', 'b', 'f', 'n', 'r', 't'],
      escape c = ['\\', e] ∧ Written.escaped? e = some c) ∨
    (c.toNat < 0x20 ∧ escape c =
      ['\\', 'u', '0', '0', hexDigit (c.toNat / 16), hexDigit (c.toNat % 16)]) ∨
    (c ≠ '"' ∧ c ≠ '\\' ∧ 0x20 ≤ c.toNat ∧ escape c = [c]) := by
  by_cases hletter : c ∈ ['"', '\\', '\x08', '\x0c', '\n', '\r', '\t']
  · simp only [List.mem_cons, List.not_mem_nil, or_false] at hletter
    rcases hletter with rfl | rfl | rfl | rfl | rfl | rfl | rfl <;>
      exact .inl ⟨_, by decide, rfl, rfl⟩
  · simp only [List.mem_cons, List.not_mem_nil, or_false, not_or] at hletter
    obtain ⟨hquote, hslash, hb, hf, hn, hr, ht⟩ := hletter
    unfold escape
    rw [if_neg hquote, if_neg hslash, if_neg hb, if_neg hf, if_neg hn, if_neg hr, if_neg ht]
    split
    next h => exact .inr (.inl ⟨h, rfl⟩)
    next h => exact .inr (.inr ⟨hquote, hslash, Nat.le_of_not_lt h, rfl⟩)

/-- A hexadecimal digit is one byte, and no control character. -/
theorem hexDigit_plain {n : Nat} (hn : n < 16) :
    (hexDigit n).utf8Size = 1 ∧ 0x20 ≤ (hexDigit n).toNat := by
  have hall : ∀ m < 16, (hexDigit m).utf8Size = 1 ∧ 0x20 ≤ (hexDigit m).toNat := by decide
  exact hall n hn

theorem printable_escape (c : Char) : Printable (escape c) := by
  rcases escape_cases c with ⟨e, he, hescape, -⟩ | ⟨hc, hescape⟩ | ⟨-, -, hc, hescape⟩
  · have hletters : ∀ e ∈ ['"', '\\', 'b', 'f', 'n', 'r', 't'], Printable ['\\', e] := by
      simp [Printable]
    rw [hescape]
    exact hletters e he
  · have hfront : Printable ['\\', 'u', '0', '0'] := by simp [Printable]
    have hhigh := (hexDigit_plain (n := c.toNat / 16) (by omega)).2
    have hlow := (hexDigit_plain (n := c.toNat % 16) (by omega)).2
    rw [hescape]
    exact hfront.append (.cons hhigh (.cons hlow .nil))
  · rw [hescape]
    exact .cons hc .nil

/-- Six bytes are enough for each byte of a string. -/
theorem bytes_escape_le (c : Char) : bytes (escape c) ≤ 6 * c.utf8Size := by
  have hpos := c.utf8Size_pos
  rcases escape_cases c with ⟨e, he, hescape, -⟩ | ⟨hc, hescape⟩ | ⟨-, -, -, hescape⟩
  · have hletters : ∀ e ∈ ['"', '\\', 'b', 'f', 'n', 'r', 't'], bytes ['\\', e] ≤ 6 := by
      simp only [List.forall_mem_cons, List.not_mem_nil, false_implies, implies_true]
      decide
    have := hletters e he
    rw [hescape]
    omega
  · have hhigh := (hexDigit_plain (n := c.toNat / 16) (by omega)).1
    have hlow := (hexDigit_plain (n := c.toNat % 16) (by omega)).1
    have hfront : bytes ['\\', 'u', '0', '0'] = 4 := by decide
    simp only [bytes_cons, bytes_nil] at hfront
    rw [hescape]
    simp only [bytes_cons, bytes_nil, hhigh, hlow]
    omega
  · rw [hescape, bytes_cons, bytes_nil]
    omega

theorem printable_quoted (s : String) : Printable (quoted s) := by
  refine .cons (by decide) (.append (fun c hc => ?_) (.cons (by decide) .nil))
  obtain ⟨d, -, hd⟩ := List.mem_flatMap.mp hc
  exact printable_escape d c hd

theorem bytes_flatMap_escape_le (cs : List Char) : bytes (cs.flatMap escape) ≤ 6 * bytes cs := by
  induction cs with
  | nil => exact Nat.le_refl 0
  | cons c cs ih =>
      have hc := bytes_escape_le c
      rw [List.flatMap_cons, bytes_append, bytes_cons, Nat.mul_add]
      exact Nat.add_le_add hc ih

theorem bytes_quoted_le (s : String) : bytes (quoted s) ≤ Serialized.stringEstimate s := by
  have hcontent := bytes_flatMap_escape_le s.toList
  have hquote : '"'.utf8Size = 1 := by decide
  unfold quoted Serialized.stringEstimate
  simp only [bytes_cons, bytes_append, bytes_nil, hquote]
  omega

/-! The characters of a container, part by part. -/

theorem flatten_array (items : List Json) :
    (tokens (.array items)).flatten = '[' :: ((itemTokens true items).flatten ++ [']']) := by
  simp [tokens]

theorem flatten_object (members : List (String × Json)) :
    (tokens (.object members)).flatten =
      '\x7b' :: ((memberTokens true members).flatten ++ ['\x7d']) := by
  simp [tokens]

theorem flatten_itemTokens (first : Bool) (x : Json) (xs : List Json) :
    (itemTokens first (x :: xs)).flatten =
      (comma first).flatten ++ (x.tokens.flatten ++ (itemTokens false xs).flatten) := by
  simp [itemTokens]

theorem flatten_memberTokens (first : Bool) (k : String) (x : Json)
    (xs : List (String × Json)) :
    (memberTokens first ((k, x) :: xs)).flatten = (comma first).flatten ++
      (quoted k ++ ':' :: (x.tokens.flatten ++ (memberTokens false xs).flatten)) := by
  simp [memberTokens]

theorem printable_comma (first : Bool) : Printable (comma first).flatten := by
  cases first <;> simp [comma, Printable]

mutual

/-- No control character is written as itself. -/
theorem printable_tokens : ∀ v : Json, Printable v.tokens.flatten
  | .null => by simp [tokens, Printable]
  | .bool b => by cases b <;> simp [tokens, Printable]
  | .number n => by simpa [tokens] using n.printable_token
  | .string s => by simpa [tokens] using printable_quoted s
  | .array items => by
      rw [flatten_array]
      exact .cons (by decide) (.append (printable_items true items) (.cons (by decide) .nil))
  | .object members => by
      rw [flatten_object]
      exact .cons (by decide) (.append (printable_members true members) (.cons (by decide) .nil))

theorem printable_items : ∀ (first : Bool) (items : List Json),
    Printable (itemTokens first items).flatten
  | _, [] => .nil
  | first, x :: xs => by
      rw [flatten_itemTokens]
      exact .append (printable_comma first)
        (.append (printable_tokens x) (printable_items false xs))

theorem printable_members : ∀ (first : Bool) (members : List (String × Json)),
    Printable (memberTokens first members).flatten
  | _, [] => .nil
  | first, (k, x) :: xs => by
      rw [flatten_memberTokens]
      exact .append (printable_comma first) (.append (printable_quoted k)
        (.cons (by decide) (.append (printable_tokens x) (printable_members false xs))))

end

/-! ### The estimate -/

theorem bytes_comma_le (first : Bool) : bytes (comma first).flatten ≤ 1 := by
  cases first <;> decide

mutual

/-- A value takes no more than its estimate. -/
theorem bytes_tokens_le : ∀ v : Json, bytes v.tokens.flatten ≤ Serialized.estimate v
  | .null => by decide
  | .bool b => by cases b <;> decide
  | .number n => by simp [tokens, Serialized.estimate]
  | .string s => by simpa [tokens, Serialized.estimate] using bytes_quoted_le s
  | .array items => by
      have hitems := bytes_itemTokens_le true items
      have hbrackets : '['.utf8Size = 1 ∧ ']'.utf8Size = 1 := by decide
      rw [flatten_array, Serialized.estimate]
      simp only [bytes_cons, bytes_append, bytes_nil, hbrackets]
      omega
  | .object members => by
      have hmembers := bytes_memberTokens_le true members
      have hbraces : '\x7b'.utf8Size = 1 ∧ '\x7d'.utf8Size = 1 := by decide
      rw [flatten_object, Serialized.estimate]
      simp only [bytes_cons, bytes_append, bytes_nil, hbraces]
      omega

theorem bytes_itemTokens_le : ∀ (first : Bool) (items : List Json),
    bytes (itemTokens first items).flatten ≤ Serialized.estimateItems items
  | _, [] => Nat.le_refl 0
  | first, x :: xs => by
      have hcomma := bytes_comma_le first
      have hx := bytes_tokens_le x
      have hxs := bytes_itemTokens_le false xs
      rw [flatten_itemTokens, Serialized.estimateItems]
      simp only [bytes_append]
      omega

theorem bytes_memberTokens_le : ∀ (first : Bool) (members : List (String × Json)),
    bytes (memberTokens first members).flatten ≤ Serialized.estimateMembers members
  | _, [] => Nat.le_refl 0
  | first, (k, x) :: xs => by
      have hcomma := bytes_comma_le first
      have hkey := bytes_quoted_le k
      have hcolon : ':'.utf8Size = 1 := by decide
      have hx := bytes_tokens_le x
      have hxs := bytes_memberTokens_le false xs
      rw [flatten_memberTokens, Serialized.estimateMembers]
      simp only [bytes_append, bytes_cons, hcolon]
      omega

end

theorem flatten_tokens_ne_nil (v : Json) : v.tokens.flatten ≠ [] := by
  cases v with
  | null => decide
  | bool b => cases b <;> decide
  | number n =>
      obtain ⟨m, hm, htoken⟩ := n.token_spelled
      have hwhole := hm.whole.nonempty
      simp [tokens, htoken, Numeral.spelling, hwhole]
  | string s => simp [tokens, quoted]
  | array items => simp [flatten_array]
  | object members => simp [flatten_object]

theorem utf8ByteSize_text (v : Json) : v.text.utf8ByteSize = bytes v.tokens.flatten := by
  rw [utf8ByteSize_eq_bytes, text, String.toList_ofList]

end Json

/-! ### The writer -/

namespace Serialized

/-- What is decided piece by piece depends only on all pieces together. -/
theorem fit?_eq {pieces : List Token} (h : pieces ≠ []) (room : Nat) :
    fit? room pieces =
      if bytes pieces.flatten < room then some pieces.flatten else none := by
  induction pieces generalizing room with
  | nil => exact absurd rfl h
  | cons t ts ih =>
      rw [List.flatten_cons, bytes_append, fit?]
      by_cases hfirst : room ≤ bytes t
      · rw [if_pos hfirst, if_neg (by omega)]
      rw [if_neg hfirst]
      by_cases hlast : ts = []
      · subst hlast
        rw [List.flatten_nil, bytes_nil, if_pos (by omega)]
        rfl
      · rw [ih hlast]
        by_cases hrest : bytes ts.flatten < room - bytes t
        · rw [if_pos hrest, if_pos (by omega)]
          rfl
        · rw [if_neg hrest, if_neg (by omega)]
          rfl

/-- The pieces of a text may be cut anywhere. -/
theorem fit?_of_flatten {v : Json} {pieces : List Token}
    (h : pieces.flatten = v.tokens.flatten) (room : Nat) :
    fit? room pieces = if bytes v.tokens.flatten < room then some v.tokens.flatten else none := by
  have hpieces : pieces ≠ [] := by
    rintro rfl
    exact v.flatten_tokens_ne_nil h.symm
  rw [fit?_eq hpieces, h]

/-- A text with its terminator, if the bound is large enough for both. -/
theorem within_eq (bound : Nat) (v : Json) :
    within bound v =
      if bytes v.tokens.flatten + 1 ≤ bound then .ok ⟨v.tokens.flatten ++ ['\x00']⟩
      else .error (.serialization "serialization bound exceeded") := by
  have hfit := fit?_of_flatten (v := v) rfl bound
  unfold within
  by_cases h : bytes v.tokens.flatten < bound
  · have hsize : bytes (v.tokens.flatten ++ ['\x00']) = bytes v.tokens.flatten + 1 :=
      bytes_append _ _
    have hchecked : ¬(bytes (v.tokens.flatten ++ ['\x00']) > bound ∨
        (v.tokens.flatten ++ ['\x00']).getLast? ≠ some '\x00') := by
      rw [List.getLast?_concat, hsize]
      simp only [ne_eq, not_true_eq_false, or_false]
      omega
    rw [hfit, if_pos h, if_pos (Nat.succ_le_of_lt h)]
    exact if_neg hchecked
  · rw [hfit, if_neg h, if_neg (by omega)]

/-- A value is written within its own estimate. -/
theorem ofJson_eq (v : Json) : ofJson v = .ok ⟨v.tokens.flatten ++ ['\x00']⟩ := by
  have hestimate := v.bytes_tokens_le
  rw [ofJson, within_eq, if_pos (by unfold margin; omega)]

theorem text_concat (cs : List Char) : text ⟨cs ++ ['\x00']⟩ = String.ofList cs := by
  rw [text, List.dropLast_concat]

/-- **A value is written whole or not at all, and its estimate is enough.**  It is written exactly
if its text and one byte more are within the bound.  Then the bytes are those of the text and a
zero, and there is no other zero.  Otherwise it is always the writer that runs out of room, and
it does so wherever the text is cut into pieces. -/
theorem within_exact (v : Json) (bound : Nat) :
    ((∃ s, within bound v = .ok s) ↔ v.text.utf8ByteSize + 1 ≤ bound) ∧
      (∀ s, within bound v = .ok s → s.text = v.text ∧
        encoded s.terminated = encoded v.text.toList ++ [0] ∧ 0 ∉ encoded v.text.toList) ∧
      (∀ e, within bound v = .error e → e = .serialization "serialization bound exceeded") ∧
      (∀ pieces : List Token, pieces.flatten = v.text.toList →
        fit? bound pieces =
          if v.text.utf8ByteSize + 1 ≤ bound then some v.text.toList else none) ∧
      v.text.utf8ByteSize ≤ estimate v ∧
      ∃ s, ofJson v = .ok s := by
  have hchars : v.text.toList = v.tokens.flatten := String.toList_ofList
  rw [v.utf8ByteSize_text, hchars]
  refine ⟨?_, ?_, ?_, fun pieces h => fit?_of_flatten h bound,
    v.bytes_tokens_le, _, ofJson_eq v⟩
  · rw [within_eq]
    split
    next h => exact ⟨fun _ => h, fun _ => ⟨_, rfl⟩⟩
    next h => exact ⟨nofun, fun h' => absurd h' h⟩
  · intro s hs
    rw [within_eq] at hs
    split at hs
    · obtain rfl := Except.ok.inj hs
      refine ⟨?_, List.flatMap_append, v.printable_tokens.zero_not_mem⟩
      exact text_concat _
    · cases hs
  · intro e he
    rw [within_eq] at he
    split at he
    · cases he
    · exact (Except.error.inj he).symm

end Serialized

end DeviceConfig
