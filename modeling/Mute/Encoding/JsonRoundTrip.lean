import Mute.Encoding.Json

/-!
# Reading back what encoding/json writes

The JSON text `encode` writes for a value is read back by `parse` as the same value, with
each string recoded rune by rune (`Utf8.recode`): a string that is valid UTF-8 comes back
byte for byte, a byte that starts no valid sequence comes back as U+FFFD.

- `unquote_stringBody`: the decoder's string loop undoes `encodeState.string`, escape by
  escape; one lemma per kind of escape (`unquote_escapeASCII`, `unquote_runeText`).
- `scanNumber_decimal`, `parseUint_decimal`: an unsigned integer's literal is scanned
  whole and read back as the integer.
- **`parse_encode`**: `parse (encode v) = some v.recode` for every value whose numbers
  are unsigned integers, proved with its element and member cases by structural
  recursion over the value.
-/

namespace Mute.Json

open Utf8

/-! ## The value as it is read back -/

mutual
/-- The value with each string and key recoded, as reading back its encoding gives it. -/
def Value.recode : Value → Value
  | .string s => .string (Utf8.recode s)
  | .array vs => .array (Value.recodeElems vs)
  | .object ms => .object (Value.recodeMembers ms)
  | v => v

/-- `Value.recode` on each element. -/
def Value.recodeElems : List Value → List Value
  | [] => []
  | v :: vs => v.recode :: Value.recodeElems vs

/-- `Value.recode` on each member, key and value. -/
def Value.recodeMembers : List (Bytes × Value) → List (Bytes × Value)
  | [] => []
  | (k, v) :: ms => (Utf8.recode k, v.recode) :: Value.recodeMembers ms
end

mutual
/-- Every number of the value is an unsigned integer as `FormatUint` writes it, which is
what `encoding/json` writes for the Go values modelled here. -/
def Value.WellFormed : Value → Prop
  | .number t => ∃ n, t = decimal n
  | .array vs => Value.WellFormedElems vs
  | .object ms => Value.WellFormedMembers ms
  | _ => True

/-- `Value.WellFormed` of each element. -/
def Value.WellFormedElems : List Value → Prop
  | [] => True
  | v :: vs => v.WellFormed ∧ Value.WellFormedElems vs

/-- `Value.WellFormed` of each member's value. -/
def Value.WellFormedMembers : List (Bytes × Value) → Prop
  | [] => True
  | (_, v) :: ms => v.WellFormed ∧ Value.WellFormedMembers ms
end

mutual
/-- Every object of the value has its keys in increasing byte order, the order Go's
`sort.Strings` gives and the order in which it writes a map. -/
def Value.KeysSorted : Value → Prop
  | .array vs => Value.KeysSortedElems vs
  | .object ms => (ms.map Prod.fst).Pairwise List.lt ∧ Value.KeysSortedMembers ms
  | _ => True

/-- `Value.KeysSorted` of each element. -/
def Value.KeysSortedElems : List Value → Prop
  | [] => True
  | v :: vs => v.KeysSorted ∧ Value.KeysSortedElems vs

/-- `Value.KeysSorted` of each member's value. -/
def Value.KeysSortedMembers : List (Bytes × Value) → Prop
  | [] => True
  | (_, v) :: ms => v.KeysSorted ∧ Value.KeysSortedMembers ms
end

/-- Go's byte order on strings, decided as core decides `<` on lists. -/
instance decidableBytesLt : DecidableRel (List.lt : Bytes → Bytes → Prop) :=
  fun a b => List.hasDecidableLt a b

/-! ## One step of the string loop -/

theorem unquote_quote (r : Bytes) : unquote (34 :: r) = some ([], r) := by
  rw [unquote.eq_def]; rfl

theorem unquote_plain {c : UInt8} (h : 0x20 ≤ c.toNat ∧ c.toNat < 0x80) (hq : c ≠ 34)
    (hb : c ≠ 92) (s : Bytes) : unquote (c :: s) = prepend [c] (unquote s) := by
  rw [unquote.eq_def]; dsimp only
  rw [if_neg hq, if_neg hb, if_neg (by omega), if_pos h.2]

theorem unquote_escape {e b : UInt8} (h : unescape e = some b) (hu : e ≠ 117) (t : Bytes) :
    unquote (92 :: e :: t) = prepend [b] (unquote t) := by
  rw [unquote.eq_3 _ _ _ hu, if_neg (by decide), if_pos rfl, h]

theorem unquote_u {t : Bytes} {r : Nat} (h : getu4 (92 :: 117 :: t) = some r)
    (hs : isSurrogate r = false) :
    unquote (92 :: 117 :: t) = prepend (encodeRune r) (unquote ((92 :: 117 :: t).drop 6)) := by
  rw [unquote.eq_2, if_neg (by decide), if_pos rfl, h]
  simp only [hs, Bool.false_eq_true, if_false]

theorem unquote_rune {c : UInt8} (h : 0x80 ≤ c.toNat) (s : Bytes) :
    unquote (c :: s) =
      prepend (encodeRune (decodeRune (c :: s)).1) (unquote ((c :: s).drop (decodeRune (c :: s)).2)) := by
  have hq : c ≠ 34 := fun e => by subst e; simp [UInt8.size] at h
  have hb : c ≠ 92 := fun e => by subst e; simp [UInt8.size] at h
  rw [unquote.eq_def]; dsimp only
  rw [if_neg hq, if_neg hb, if_neg (by omega), if_neg (by omega)]

/-! ## Escapes -/

theorem hexValue_hexDigit {i : Nat} (h : i < 16) : hexValue (hexDigit i) = some i := by
  have : ∀ j : Fin 16, hexValue (hexDigit j) = some j := by decide
  exact this ⟨i, h⟩

/-- `\u00` and the two hex digits of a byte are read back as the byte. -/
theorem getu4_hexEscape (b : UInt8) (X : Bytes) :
    getu4 (lit "\\u00" ++ [hexDigit (b.toNat / 16), hexDigit (b.toNat % 16)] ++ X) = some b.toNat := by
  have h1 : b.toNat / 16 < 16 := by have : b.toNat < 256 := b.toNat_lt_size; omega
  have h2 : b.toNat % 16 < 16 := Nat.mod_lt _ (by decide)
  show getu4 (92 :: 117 :: 48 :: 48 :: _ :: _ :: X) = _
  simp [getu4, hexValue_hexDigit h1, hexValue_hexDigit h2, show hexValue 48 = some 0 from rfl]
  omega

/-- An ASCII byte's escape is read back as the byte. -/
theorem unquote_escapeASCII {b : UInt8} (hb : b.toNat < 0x80) (X : Bytes) :
    unquote (escapeASCII b ++ X) = prepend [b] (unquote X) := by
  unfold escapeASCII
  split_ifs with h1 h2 h3 h4 h5
  · exact unquote_plain ⟨h1.1, hb⟩ h1.2.2.1 h1.2.1 X
  · rcases h2 with rfl | rfl
    · exact @unquote_escape 92 92 rfl (by decide) X
    · exact @unquote_escape 34 34 rfl (by decide) X
  · subst h3; exact @unquote_escape 110 10 rfl (by decide) X
  · subst h4; exact @unquote_escape 114 13 rfl (by decide) X
  · subst h5; exact @unquote_escape 116 9 rfl (by decide) X
  · have hs : isSurrogate b.toNat = false := by simp [isSurrogate]; omega
    refine (unquote_u (getu4_hexEscape b X) hs).trans ?_
    rw [encodeRune_ascii hb]; rfl

/-- A rune's text, escaped or copied, is read back as the rune written by `EncodeRune`. -/
theorem unquote_runeText {b : UInt8} {rest : Bytes} (hb : ¬b.toNat < 0x80) (X : Bytes) :
    unquote (runeText (b :: rest) ++ X) =
      prepend (encodeRune (decodeRune (b :: rest)).1) (unquote X) := by
  unfold runeText
  split_ifs with h1 h2
  · rw [h1]; exact unquote_u rfl rfl
  · rcases h2 with h | h <;> rw [h] <;> exact unquote_u rfl rfl
  · have hn := decodeRune_snd_pos b rest
    have hlen : (decodeRune (b :: rest)).2 ≤ rest.length + 1 := decodeRune_snd_le b rest
    rw [List.take_cons hn, List.cons_append, unquote_rune (by omega), ← List.cons_append,
      ← List.take_cons hn, decodeRune_take_append h1 X, List.drop_left' (by simp; omega)]

/-- **The string loop undoes `encodeState.string`**: reading an escaped string and its
closing quote gives the string recoded and what follows the quote. -/
theorem unquote_stringBody (s r : Bytes) : unquote (stringBody s ++ 34 :: r) = some (recode s, r) := by
  induction s using stringBody.induct with
  | case1 => rw [stringBody, List.nil_append, unquote_quote, recode]
  | case2 b rest hb ih =>
    rw [stringBody, if_pos hb, List.append_assoc, unquote_escapeASCII hb, ih, recode_ascii_cons hb]
    rfl
  | case3 b rest hb ih =>
    rw [stringBody, if_neg hb, List.append_assoc, unquote_runeText hb, ih, recode]
    rfl

/-! ## Numbers -/

/-- What may follow a value in an encoding: `,`, `]`, the closing brace, or nothing. -/
def Stops (r : Bytes) : Prop := ∀ c ∈ r.head?, c = 44 ∨ c = 93 ∨ c = 125

theorem decimal_eq (n : Nat) :
    decimal n = (if n < 10 then [] else decimal (n / 10)) ++ [UInt8.ofNat (48 + n % 10)] := by
  rw [decimal]

theorem isDigit_decimal (n : Nat) : ∀ c ∈ decimal n, isDigit c := by
  induction n using Nat.strong_induction_on with
  | _ n ih =>
    rw [decimal_eq]
    intro c hc
    rcases List.mem_append.mp hc with hc | hc
    · split_ifs at hc with h
      · simp at hc
      · exact ih _ (by omega) c hc
    · rw [List.mem_singleton.mp hc]
      simp only [isDigit, UInt8.toNat_ofNat_of_lt (show 48 + n % 10 < 2 ^ 8 by omega)]
      simp; omega

/-- The literal starts with `0` only for zero, and is then `0` alone. -/
theorem decimal_head (n : Nat) : ∃ c t, decimal n = c :: t ∧ (c = 48 → n = 0 ∧ t = []) := by
  induction n using Nat.strong_induction_on with
  | _ n ih =>
    rw [decimal_eq]
    split_ifs with h
    · refine ⟨_, [], rfl, fun hc => ⟨?_, rfl⟩⟩
      have := congrArg UInt8.toNat hc
      rw [UInt8.toNat_ofNat_of_lt (show 48 + n % 10 < 2 ^ 8 by omega)] at this
      simp [UInt8.size] at this; omega
    · obtain ⟨c, t, hct, h0⟩ := ih (n / 10) (by omega)
      exact ⟨c, t ++ _, by rw [hct]; rfl, fun hc => absurd (h0 hc).1 (by omega)⟩

theorem digitsValue_decimal (n : Nat) : digitsValue (decimal n) = n := by
  induction n using Nat.strong_induction_on with
  | _ n ih =>
    rw [decimal_eq, digitsValue, List.foldl_append, List.foldl_cons, List.foldl_nil,
      UInt8.toNat_ofNat_of_lt (show 48 + n % 10 < 2 ^ 8 by omega)]
    split_ifs with h
    · simp; omega
    · rw [← digitsValue, ih _ (by omega)]; omega

/-- `ParseUint` reads a 64-bit integer back from its literal. -/
theorem parseUint_decimal {n : Nat} (h : n < 2 ^ 64) : parseUint (decimal n) = some (UInt64.ofNat n) := by
  obtain ⟨c, t, hct, -⟩ := decimal_head n
  have hd := isDigit_decimal n
  rw [parseUint, if_pos ⟨by simp [hct], List.all_eq_true.mpr hd, by rw [digitsValue_decimal]; exact h⟩,
    digitsValue_decimal]

theorem takeWhile_isDigit_stop {r : Bytes} (hr : Stops r) : r.takeWhile isDigit = [] ∧ r.dropWhile isDigit = r := by
  rcases r with _ | ⟨c, r⟩
  · simp
  · rcases hr c rfl with rfl | rfl | rfl <;> simp [isDigit, UInt8.size]

theorem scanFraction_stop {r : Bytes} (hr : Stops r) : scanFraction r = some ([], r) := by
  rcases r with _ | ⟨c, r⟩
  · rfl
  · rcases hr c rfl with rfl | rfl | rfl <;> rfl

theorem scanExponent_stop {r : Bytes} (hr : Stops r) : scanExponent r = some ([], r) := by
  rcases r with _ | ⟨c, r⟩
  · rfl
  · rcases hr c rfl with rfl | rfl | rfl <;> rfl

/-- An unsigned integer's literal is scanned whole when a stop follows it. -/
theorem scanNumber_decimal (n : Nat) {r : Bytes} (hr : Stops r) :
    scanNumber (decimal n ++ r) = some (decimal n, r) := by
  obtain ⟨c, t, hct, h0⟩ := decimal_head n
  have hd := isDigit_decimal n
  rw [hct] at hd ⊢
  have hc : c ≠ 45 := fun e => by have := hd c (List.mem_cons_self c t); subst e; simp [isDigit, UInt8.size] at this
  have hint : scanInteger (c :: (t ++ r)) = some (c :: t, r) := by
    by_cases h48 : c = 48
    · obtain ⟨-, rfl⟩ := h0 h48; subst h48; rfl
    · have ht : ∀ a ∈ t, isDigit a := fun a ha => hd a (List.mem_cons_of_mem c ha)
      simp only [scanInteger, hd c (List.mem_cons_self c t), if_true,
        List.takeWhile_append_of_pos ht, List.dropWhile_append_of_pos ht, takeWhile_isDigit_stop hr,
        List.append_nil]
  simp [scanNumber, hc, hint, scanFraction_stop hr, scanExponent_stop hr]

/-! ## One step of the value reader -/

theorem skipSpace_cons_of {c : UInt8} (h : isSpace c = false) (t : Bytes) :
    skipSpace (c :: t) = c :: t := by
  rw [skipSpace, List.dropWhile_cons, h]; rfl

section Steps

variable {fuel : Nat}

theorem parseValue_string (t : Bytes) :
    parseValue (fuel + 1) (34 :: t) = (unquote t).map fun d => (.string d.1, d.2) := rfl

theorem parseValue_object {s r : Bytes} {m : Bytes × Value} (h : parseMember fuel s = some (m, r)) :
    parseValue (fuel + 1) (123 :: 34 :: s) =
      (parseMembersTail fuel r).map fun d => (.object (m :: d.1), d.2) := by
  simp only [parseValue, skipSpace_cons_of (show isSpace 123 = false from rfl),
    skipSpace_cons_of (show isSpace 34 = false from rfl), h]

theorem parseValue_array {s r : Bytes} {v : Value} (hs : ∀ r', skipSpace s ≠ 93 :: r')
    (h : parseValue fuel s = some (v, r)) :
    parseValue (fuel + 1) (91 :: s) = (parseElemsTail fuel r).map fun d => (.array (v :: d.1), d.2) := by
  simp only [parseValue, skipSpace_cons_of (show isSpace 91 = false from rfl), h]

theorem parseValue_literal {s : Bytes}
    (hc : ∃ c t, s = c :: t ∧ isSpace c = false ∧ c ≠ 123 ∧ c ≠ 91 ∧ c ≠ 34) :
    parseValue (fuel + 1) s = parseLiteral s := by
  obtain ⟨c, t, rfl, hc⟩ := hc
  simp only [parseValue, skipSpace_cons_of hc.1]
  split <;> simp_all

theorem parseMember_eq {s s' r k : Bytes} {v : Value} (hk : unquote s = some (k, 58 :: s'))
    (hv : parseValue fuel s' = some (v, r)) : parseMember (fuel + 1) s = some ((k, v), r) := by
  simp only [parseMember, hk, skipSpace_cons_of (show isSpace 58 = false from rfl), hv]; rfl

theorem parseMembersTail_comma {s r : Bytes} {m : Bytes × Value} (h : parseMember fuel s = some (m, r)) :
    parseMembersTail (fuel + 1) (44 :: 34 :: s) = (parseMembersTail fuel r).map fun d => (m :: d.1, d.2) := by
  simp only [parseMembersTail, skipSpace_cons_of (show isSpace 44 = false from rfl),
    skipSpace_cons_of (show isSpace 34 = false from rfl), h]

theorem parseElemsTail_comma {s r : Bytes} {v : Value} (h : parseValue fuel s = some (v, r)) :
    parseElemsTail (fuel + 1) (44 :: s) = (parseElemsTail fuel r).map fun d => (v :: d.1, d.2) := by
  simp only [parseElemsTail, skipSpace_cons_of (show isSpace 44 = false from rfl), h]

end Steps

theorem lit_null : lit "null" = [110, 117, 108, 108] := by decide

theorem lit_true : lit "true" = [116, 114, 117, 101] := by decide

theorem lit_false : lit "false" = [102, 97, 108, 115, 101] := by decide

theorem isPrefixOf_cons_ne {a b : UInt8} (h : a ≠ b) (l t : Bytes) :
    (a :: l).isPrefixOf (b :: t) = false := by
  simp [List.isPrefixOf_cons₂, h]

theorem isPrefixOf_append_self (l r : Bytes) : l.isPrefixOf (l ++ r) = true := by simp

theorem parseLiteral_null (r : Bytes) : parseLiteral (lit "null" ++ r) = some (.null, r) := by
  rw [parseLiteral, lit_true, lit_false, lit_null, List.cons_append, isPrefixOf_cons_ne (by decide),
    isPrefixOf_cons_ne (by decide), ← List.cons_append, isPrefixOf_append_self]
  simp

theorem parseLiteral_true (r : Bytes) : parseLiteral (lit "true" ++ r) = some (.bool true, r) := by
  rw [parseLiteral, lit_true, isPrefixOf_append_self]
  simp

theorem parseLiteral_false (r : Bytes) : parseLiteral (lit "false" ++ r) = some (.bool false, r) := by
  rw [parseLiteral, lit_true, lit_false, List.cons_append, isPrefixOf_cons_ne (by decide),
    ← List.cons_append, isPrefixOf_append_self]
  simp

theorem parseLiteral_decimal (n : Nat) {r : Bytes} (hr : Stops r) :
    parseLiteral (decimal n ++ r) = some (.number (decimal n), r) := by
  obtain ⟨c, t, hct, -⟩ := decimal_head n
  have hc := isDigit_decimal n c (by rw [hct]; exact List.mem_cons_self c t)
  have hne : ∀ d : UInt8, 57 < d.toNat → (d == c) = false := fun d hd => by
    rw [beq_eq_false_iff_ne]; rintro rfl; simp [isDigit] at hc; omega
  have hp : ∀ w : Bytes, 57 < (w.headD 0).toNat → w.isPrefixOf (decimal n ++ r) = false := by
    rintro (_ | ⟨d, w⟩) hd
    · simp at hd
    · rw [hct, List.cons_append, List.isPrefixOf_cons₂, hne d hd, Bool.false_and]
  rw [parseLiteral, hp _ (by decide), hp _ (by decide), hp _ (by decide), if_neg Bool.false_ne_true,
    if_neg Bool.false_ne_true, if_neg Bool.false_ne_true, scanNumber_decimal n hr]
  rfl

/-! ## The round trip -/

/-- A digit is no byte the value reader or a list reader branches on. -/
theorem isDigit_head {c : UInt8} (h : isDigit c) :
    isSpace c = false ∧ c ≠ 93 ∧ c ≠ 123 ∧ c ≠ 91 ∧ c ≠ 34 := by
  have hc : ∀ k : UInt8, k.toNat < 48 ∨ 57 < k.toNat → c ≠ k := fun k hk e => by
    subst e; simp [isDigit] at h; omega
  simp only [isSpace, Bool.or_eq_false_iff, beq_eq_false_iff_ne]
  exact ⟨⟨⟨⟨hc 32 (by decide), hc 9 (by decide)⟩, hc 10 (by decide)⟩, hc 13 (by decide)⟩,
    hc 93 (by decide), hc 123 (by decide), hc 91 (by decide), hc 34 (by decide)⟩

/-- An encoding starts with a byte that is neither whitespace nor `]`. -/
theorem encode_head {v : Value} (h : v.WellFormed) :
    ∃ c t, encode v = c :: t ∧ isSpace c = false ∧ c ≠ 93 := by
  match v, h with
  | .null, _ => exact ⟨_, _, by rw [encode, lit_null], by decide⟩
  | .bool true, _ => exact ⟨_, _, by rw [encode, if_pos rfl, lit_true], by decide⟩
  | .bool false, _ => exact ⟨_, _, by rw [encode, if_neg Bool.false_ne_true, lit_false], by decide⟩
  | .number _, ⟨n, hn⟩ =>
    obtain ⟨c, t, hct, -⟩ := decimal_head n
    have hc := isDigit_head (isDigit_decimal n c (by rw [hct]; exact List.mem_cons_self c t))
    exact ⟨c, t, by rw [encode, hn, hct], hc.1, hc.2.1⟩
  | .string _, _ => exact ⟨_, _, rfl, by decide⟩
  | .array [], _ => exact ⟨_, _, by rw [encode]; rfl, by decide⟩
  | .array (_ :: _), _ => exact ⟨_, _, rfl, by decide⟩
  | .object [], _ => exact ⟨_, _, rfl, by decide⟩
  | .object (_ :: _), _ => exact ⟨_, _, rfl, by decide⟩

theorem stops_encodeElemsTail (vs : List Value) (r : Bytes) : Stops (encodeElemsTail vs ++ r) := by
  cases vs <;> simp [Stops, encodeElemsTail]

theorem stops_encodeMembersTail (ms : List (Bytes × Value)) (r : Bytes) :
    Stops (encodeMembersTail ms ++ r) := by
  rcases ms with _ | ⟨⟨k, v⟩, ms⟩ <;> simp [Stops, encodeMembersTail]

theorem length_encodeElemsTail_pos (vs : List Value) : 0 < (encodeElemsTail vs).length := by
  cases vs <;> simp [encodeElemsTail]

theorem length_encodeMembersTail_pos (ms : List (Bytes × Value)) :
    0 < (encodeMembersTail ms).length := by
  rcases ms with _ | ⟨⟨k, v⟩, ms⟩ <;> simp [encodeMembersTail]

mutual
/-- **Reading back an encoded value**: the value recoded, and the rest of the input. -/
theorem parseValue_encode : ∀ (v : Value) (fuel : Nat) (r : Bytes), v.WellFormed → Stops r →
    (encode v).length < fuel → parseValue fuel (encode v ++ r) = some (v.recode, r)
  | _, 0, _, _, _, hf => absurd hf (Nat.not_lt_zero _)
  | .null, fuel + 1, r, _, _, _ => by
    rw [encode, parseValue_literal ⟨_, _, by rw [lit_null]; rfl, by decide⟩, parseLiteral_null]; rfl
  | .bool true, fuel + 1, r, _, _, _ => by
    rw [encode, if_pos rfl, parseValue_literal ⟨_, _, by rw [lit_true]; rfl, by decide⟩,
      parseLiteral_true]; rfl
  | .bool false, fuel + 1, r, _, _, _ => by
    rw [encode, if_neg Bool.false_ne_true, parseValue_literal ⟨_, _, by rw [lit_false]; rfl, by decide⟩,
      parseLiteral_false]; rfl
  | .number _, fuel + 1, r, ⟨n, hn⟩, hr, _ => by
    subst hn
    obtain ⟨c, t, hct, -⟩ := decimal_head n
    have hc := isDigit_head (isDigit_decimal n c (by rw [hct]; exact List.mem_cons_self c t))
    rw [encode, parseValue_literal ⟨c, t ++ r, by rw [hct]; rfl, hc.1, hc.2.2⟩,
      parseLiteral_decimal n hr]
    rfl
  | .string s, fuel + 1, r, _, _, _ => by
    simp only [encode, quote, List.append_assoc, List.cons_append, List.nil_append]
    rw [parseValue_string, unquote_stringBody]; rfl
  | .array [], fuel + 1, r, _, _, _ => by
    rw [encode, show lit "[]" = [91, 93] by decide]; rfl
  | .array (v :: vs), fuel + 1, r, ⟨hv, hvs⟩, _, hf => by
    simp only [encode, List.append_assoc, List.cons_append, List.nil_append, List.length_cons,
      List.length_append] at hf ⊢
    have htail := length_encodeElemsTail_pos vs
    obtain ⟨c, t, hct, hsp, h93⟩ := encode_head hv
    rw [parseValue_array (fun r' => by rw [hct, List.cons_append, skipSpace_cons_of hsp]; simp [h93])
      (parseValue_encode v fuel _ hv (stops_encodeElemsTail vs r) (by omega)),
      parseElemsTail_encode vs fuel r hvs (by omega)]
    rfl
  | .object [], fuel + 1, r, _, _, _ => rfl
  | .object ((k, v) :: ms), fuel + 1, r, ⟨hv, hms⟩, _, hf => by
    simp only [encode, quote, List.append_assoc, List.cons_append, List.nil_append,
      List.length_cons, List.length_append, List.length_singleton] at hf ⊢
    have htail := length_encodeMembersTail_pos ms
    obtain ⟨fuel, rfl⟩ : ∃ f, fuel = f + 1 := ⟨fuel - 1, by omega⟩
    rw [parseValue_object (parseMember_eq (unquote_stringBody k _)
      (parseValue_encode v fuel _ hv (stops_encodeMembersTail ms r) (by omega))),
      parseMembersTail_encode ms (fuel + 1) r hms (by omega)]
    rfl

/-- Reading back the elements after an array's first. -/
theorem parseElemsTail_encode : ∀ (vs : List Value) (fuel : Nat) (r : Bytes),
    Value.WellFormedElems vs → (encodeElemsTail vs).length ≤ fuel →
    parseElemsTail fuel (encodeElemsTail vs ++ r) = some (Value.recodeElems vs, r)
  | [], 0, _, _, hf => absurd hf (by simp [encodeElemsTail])
  | [], fuel + 1, r, _, _ => rfl
  | _ :: _, 0, _, _, hf => absurd hf (by simp [encodeElemsTail])
  | v :: vs, fuel + 1, r, ⟨hv, hvs⟩, hf => by
    simp only [encodeElemsTail, List.append_assoc, List.cons_append, List.nil_append, List.length_cons,
      List.length_append] at hf ⊢
    have htail := length_encodeElemsTail_pos vs
    rw [parseElemsTail_comma (parseValue_encode v fuel _ hv (stops_encodeElemsTail vs r) (by omega)),
      parseElemsTail_encode vs fuel r hvs (by omega)]
    rfl

/-- Reading back the members after an object's first. -/
theorem parseMembersTail_encode : ∀ (ms : List (Bytes × Value)) (fuel : Nat) (r : Bytes),
    Value.WellFormedMembers ms → (encodeMembersTail ms).length ≤ fuel →
    parseMembersTail fuel (encodeMembersTail ms ++ r) = some (Value.recodeMembers ms, r)
  | [], 0, _, _, hf => absurd hf (by simp [encodeMembersTail])
  | [], fuel + 1, r, _, _ => rfl
  | _ :: _, 0, _, _, hf => absurd hf (by simp [encodeMembersTail])
  | (k, v) :: ms, fuel + 1, r, ⟨hv, hms⟩, hf => by
    simp only [encodeMembersTail, quote, List.append_assoc, List.cons_append, List.nil_append,
      List.length_cons, List.length_append, List.length_singleton] at hf ⊢
    have htail := length_encodeMembersTail_pos ms
    obtain ⟨fuel, rfl⟩ : ∃ f, fuel = f + 1 := ⟨fuel - 1, by omega⟩
    rw [parseMembersTail_comma (parseMember_eq (unquote_stringBody k _)
      (parseValue_encode v fuel _ hv (stops_encodeMembersTail ms r) (by omega))),
      parseMembersTail_encode ms (fuel + 1) r hms (by omega)]
    rfl
end

/-- **`json.Unmarshal` reads back what `encodeState` writes**, each string recoded. -/
theorem parse_encode {v : Value} (h : v.WellFormed) : parse (encode v) = some v.recode := by
  have := parseValue_encode v ((encode v).length + 1) [] h (by simp [Stops]) (Nat.lt_succ_self _)
  rw [List.append_nil] at this
  rw [parse, this]
  rfl

end Mute.Json
