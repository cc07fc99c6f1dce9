import Mute.Encoding.JsonRoundTrip

/-!
# What `json.Unmarshal` reads is in normal form

`unquoteBytes` writes each rune it reads with `EncodeRune`, and every escape it reads as
an ASCII byte or as a rune written the same way, so every string the decoder returns is
valid UTF-8, whatever the input. Written again by `encodeState` and read back, such a
value comes back as itself.

- `readsValid_unquote`: one case per branch of the string loop.
- `stringsValid_parseValue` and its member, element and tail cases: every string and
  key of every value the reader returns is valid, by recursion over the fuel.
- **`parse_encode_eq_self_iff`**: for a value whose numbers are unsigned integers,
  writing it and reading it back gives the value itself exactly when all its strings
  are valid UTF-8, and so for every value `parse` returns.
- `valid_decodeStruct`: storing such a value into a Go struct keeps any property of the
  struct that each field's store keeps; `decodeStruct_preserves` and
  `decodeElems_preserves` do the same for any value, into a struct and into a slice.
-/

namespace Mute.Json

open Utf8

mutual
/-- Every string of the value, keys included, is valid UTF-8. -/
def Value.stringsValid : Value → Bool
  | .string s => valid s
  | .array vs => Value.elemsValid vs
  | .object ms => Value.membersValid ms
  | _ => true

/-- `Value.stringsValid` of each element. -/
def Value.elemsValid : List Value → Bool
  | [] => true
  | v :: vs => v.stringsValid && Value.elemsValid vs

/-- Each key valid UTF-8 and `Value.stringsValid` of each member's value. -/
def Value.membersValid : List (Bytes × Value) → Bool
  | [] => true
  | (k, v) :: ms => valid k && v.stringsValid && Value.membersValid ms
end

/-! ## What `unquote` returns -/

/-- Every string a read returns is valid UTF-8. -/
def ReadsValid (o : Option (Bytes × Bytes)) : Prop := ∀ d r, o = some (d, r) → valid d

theorem readsValid_prepend {p : Bytes} {o : Option (Bytes × Bytes)} (hp : Whole p)
    (ho : ReadsValid o) : ReadsValid (prepend p o) := by
  intro d r h
  obtain ⟨⟨d', r'⟩, h', he⟩ := Option.map_eq_some'.mp h
  cases he
  exact hp.valid_append (ho d' r' h')

/-- The byte of a one-character escape is ASCII: `"`, `\`, `/`, or one of the controls of
`\b`, `\f`, `\n`, `\r`, `\t`. -/
theorem unescape_lt {e b : UInt8} (h : unescape e = some b) : b.toNat < 0x80 := by
  simp only [unescape, ite_eq_iff, Option.some.injEq, reduceCtorEq, and_false, or_false] at h
  rcases h with ⟨rfl | rfl | rfl, rfl⟩ | ⟨-, ⟨-, rfl⟩ | ⟨-, ⟨-, rfl⟩ | ⟨-, ⟨-, rfl⟩ | ⟨-, ⟨-, rfl⟩ |
    ⟨-, -, rfl⟩⟩⟩⟩⟩ <;> decide

/-- **The string loop writes valid UTF-8**: each piece `unquote` writes is one
well-formed encoding, an ASCII byte, an escape's byte or a rune written by `EncodeRune`. -/
theorem readsValid_unquote (s : Bytes) : ReadsValid (unquote s) := by
  induction s using unquote.induct with
  | case1 => rw [unquote.eq_1]; rintro _ _ ⟨⟩
  | case2 rest => rw [unquote_quote]; rintro _ _ ⟨⟩; rw [valid]
  | case3 t h34 hu => rw [unquote.eq_2, if_neg h34, if_pos rfl, hu]; rintro _ _ ⟨⟩
  | case4 t r hs r2 hne h34 hu hu2 ih =>
    rw [unquote.eq_2, if_neg h34, if_pos rfl]; simp only [hu, hs, hu2, if_true]
    rw [if_pos hne]
    exact readsValid_prepend (whole_encodeRune _) ih
  | case5 t r hs r2 hne h34 hu hu2 ih =>
    rw [unquote.eq_2, if_neg h34, if_pos rfl]; simp only [hu, hs, hu2, if_true]
    rw [if_neg hne]
    exact readsValid_prepend (whole_encodeRune _) ih
  | case6 t r hs h34 hu hu2 ih =>
    rw [unquote.eq_2, if_neg h34, if_pos rfl]; simp only [hu, hs, hu2, if_true]
    exact readsValid_prepend (whole_encodeRune _) ih
  | case7 t r hs h34 hu ih =>
    rw [unquote.eq_2, if_neg h34, if_pos rfl]; simp only [hu, hs, if_false]
    exact readsValid_prepend (whole_encodeRune _) ih
  | case8 e t he b hb h34 ih =>
    rw [unquote_escape hb he]
    exact readsValid_prepend (whole_ascii (unescape_lt hb)) ih
  | case9 e t he hb h34 =>
    rw [unquote.eq_3 _ _ _ he, if_neg h34, if_pos rfl, hb]; rintro _ _ ⟨⟩
  | case10 h34 => rw [unquote.eq_def]; dsimp only; rw [if_neg h34, if_pos rfl]; rintro _ _ ⟨⟩
  | case11 b rest h34 h92 hc =>
    rw [unquote.eq_def]; dsimp only; rw [if_neg h34, if_neg h92, if_pos hc]; rintro _ _ ⟨⟩
  | case12 b rest h34 h92 hc ha ih =>
    rw [unquote_plain ⟨by omega, ha⟩ h34 h92]
    exact readsValid_prepend (whole_ascii ha) ih
  | case13 b rest h34 h92 hc ha ih =>
    rw [unquote_rune (by omega)]
    exact readsValid_prepend (whole_encodeRune _) ih

/-! ## What the value reader returns -/

theorem stringsValid_parseLiteral {t r : Bytes} {v : Value} (h : parseLiteral t = some (v, r)) :
    v.stringsValid := by
  unfold parseLiteral at h
  split_ifs at h
  iterate 3 cases h; rfl
  obtain ⟨_, -, he⟩ := Option.map_eq_some'.mp h
  cases he; rfl

mutual
theorem stringsValid_parseValue : ∀ (fuel : Nat) {s r : Bytes} {v : Value},
    parseValue fuel s = some (v, r) → v.stringsValid
  | 0, _, _, _, h => nomatch h
  | fuel + 1, s, r, v, h => by
    rw [parseValue] at h
    split at h
    · split at h
      · cases h; rfl
      · split at h
        · rename_i hm
          obtain ⟨⟨ms, r''⟩, hms, he⟩ := Option.map_eq_some'.mp h
          cases he
          have h1 := stringsValid_parseMember fuel hm
          have h2 := stringsValid_parseMembersTail fuel hms
          simp only [Value.stringsValid, Value.membersValid, h1, h2, Bool.and_self]
        · cases h
      · cases h
    · split at h
      · cases h; rfl
      · split at h
        · rename_i hv
          obtain ⟨⟨vs, r''⟩, hvs, he⟩ := Option.map_eq_some'.mp h
          cases he
          have h1 := stringsValid_parseValue fuel hv
          have h2 := stringsValid_parseElemsTail fuel hvs
          simp only [Value.stringsValid, Value.elemsValid, h1, h2, Bool.and_self]
        · cases h
    · obtain ⟨⟨d, r'⟩, hd, he⟩ := Option.map_eq_some'.mp h
      cases he
      exact readsValid_unquote _ d r' hd
    · exact stringsValid_parseLiteral h

theorem stringsValid_parseMember : ∀ (fuel : Nat) {s r : Bytes} {k : Bytes} {v : Value},
    parseMember fuel s = some ((k, v), r) → valid k ∧ v.stringsValid
  | 0, _, _, _, _, h => nomatch h
  | fuel + 1, s, r, k, v, h => by
    rw [parseMember] at h
    split at h
    · rename_i k' r' hk
      split at h
      · obtain ⟨⟨v', r''⟩, hv, he⟩ := Option.map_eq_some'.mp h
        cases he
        exact ⟨readsValid_unquote _ _ _ hk, stringsValid_parseValue fuel hv⟩
      · cases h
    · cases h

theorem stringsValid_parseMembersTail : ∀ (fuel : Nat) {s r : Bytes} {ms : List (Bytes × Value)},
    parseMembersTail fuel s = some (ms, r) → Value.membersValid ms
  | 0, _, _, _, h => nomatch h
  | fuel + 1, s, r, ms, h => by
    rw [parseMembersTail] at h
    split at h
    · cases h; rfl
    · split at h
      · split at h
        · rename_i m r' hm
          obtain ⟨⟨ms', r''⟩, hms, he⟩ := Option.map_eq_some'.mp h
          cases he
          have h1 := stringsValid_parseMember fuel hm
          have h2 := stringsValid_parseMembersTail fuel hms
          simp only [Value.membersValid, h1, h2, Bool.and_self]
        · cases h
      · cases h
    · cases h

theorem stringsValid_parseElemsTail : ∀ (fuel : Nat) {s r : Bytes} {vs : List Value},
    parseElemsTail fuel s = some (vs, r) → Value.elemsValid vs
  | 0, _, _, _, h => nomatch h
  | fuel + 1, s, r, vs, h => by
    rw [parseElemsTail] at h
    split at h
    · cases h; rfl
    · split at h
      · rename_i v r' hv
        obtain ⟨⟨vs', r''⟩, hvs, he⟩ := Option.map_eq_some'.mp h
        cases he
        have h1 := stringsValid_parseValue fuel hv
        have h2 := stringsValid_parseElemsTail fuel hvs
        simp only [Value.elemsValid, h1, h2, Bool.and_self]
      · cases h
    · cases h
end

/-- Every string and key of every value `parse` returns is valid UTF-8. -/
theorem stringsValid_parse {t : Bytes} {v : Value} (h : parse t = some v) : v.stringsValid := by
  unfold parse at h
  split at h
  · rename_i hv
    split_ifs at h
    cases h
    exact stringsValid_parseValue _ hv
  · cases h

/-! ## Valid values read back as themselves -/

mutual
theorem Value.recode_of_stringsValid : ∀ {v : Value}, v.stringsValid → v.recode = v
  | .null, _ | .bool _, _ | .number _, _ => rfl
  | .string _, h => congrArg Value.string (Utf8.recode_of_valid h)
  | .array _, h => by rw [Value.recode, Value.recodeElems_of_elemsValid h]
  | .object _, h => by rw [Value.recode, Value.recodeMembers_of_membersValid h]

theorem Value.recodeElems_of_elemsValid : ∀ {vs : List Value}, Value.elemsValid vs →
    Value.recodeElems vs = vs
  | [], _ => rfl
  | _ :: _, h => by
    rw [Value.elemsValid, Bool.and_eq_true] at h
    rw [Value.recodeElems, Value.recode_of_stringsValid h.1, Value.recodeElems_of_elemsValid h.2]

theorem Value.recodeMembers_of_membersValid : ∀ {ms : List (Bytes × Value)}, Value.membersValid ms →
    Value.recodeMembers ms = ms
  | [], _ => rfl
  | (_, _) :: _, h => by
    rw [Value.membersValid, Bool.and_eq_true, Bool.and_eq_true] at h
    rw [Value.recodeMembers, Utf8.recode_of_valid h.1.1, Value.recode_of_stringsValid h.1.2,
      Value.recodeMembers_of_membersValid h.2]
end

mutual
/-- Recoding the strings keeps the numbers, so a well-formed value stays well formed. -/
theorem Value.wellFormed_recode : ∀ {v : Value}, v.WellFormed → v.recode.WellFormed
  | .null, _ | .bool _, _ | .string _, _ => trivial
  | .number _, h => h
  | .array _, h => Value.wellFormedElems_recode h
  | .object _, h => Value.wellFormedMembers_recode h

theorem Value.wellFormedElems_recode : ∀ {vs : List Value}, Value.WellFormedElems vs →
    Value.WellFormedElems (Value.recodeElems vs)
  | [], _ => trivial
  | _ :: _, h => ⟨Value.wellFormed_recode h.1, Value.wellFormedElems_recode h.2⟩

theorem Value.wellFormedMembers_recode : ∀ {ms : List (Bytes × Value)}, Value.WellFormedMembers ms →
    Value.WellFormedMembers (Value.recodeMembers ms)
  | [], _ => trivial
  | (_, _) :: _, h => ⟨Value.wellFormed_recode h.1, Value.wellFormedMembers_recode h.2⟩
end

/-- **A value read from JSON is in normal form**: for a value whose numbers are unsigned
integers, writing it and reading it back gives the value itself exactly when its strings
and keys are valid UTF-8, which every value `parse` returns has. -/
theorem parse_encode_eq_self_iff {v : Value} (hw : v.WellFormed) :
    (parse (encode v) = some v ↔ v.stringsValid) ∧
      ∀ t, parse t = some v → parse (encode v) = some v :=
  ⟨⟨stringsValid_parse, fun h => by rw [parse_encode hw, Value.recode_of_stringsValid h]⟩,
    fun _ ht => by rw [parse_encode hw, Value.recode_of_stringsValid (stringsValid_parse ht)]⟩

/-! ## Storing a read value into Go values -/

theorem valid_decodeString {old s : Bytes} {w : Value} (hold : Utf8.valid old) (hw : w.stringsValid)
    (h : decodeString old w = .ok s) : Utf8.valid s := by
  cases w <;> cases h
  · exact hold
  · exact hw

theorem except_bind_eq_ok {ε α β : Type} {x : Except ε α} {f : α → Except ε β} {b : β} :
    (x >>= f) = .ok b ↔ ∃ a, x = .ok a ∧ f a = .ok b := by
  cases x <;> simp [bind, Except.bind]

theorem except_pure_eq_ok {ε α : Type} {a b : α} : (pure a : Except ε α) = .ok b ↔ a = b :=
  ⟨fun h => Except.ok.inj h, fun h => h ▸ rfl⟩

/-- Storing a value whose strings are valid into a Go struct keeps every property of the
struct that storing such a value into each of its fields keeps. -/
theorem valid_decodeStruct {α : Type} {names : List Bytes} {set : α → Nat → Value → Except Error α}
    (P : α → Prop) (hset : ∀ x i w y, P x → w.stringsValid → set x i w = .ok y → P y)
    {x y : α} {v : Value} (hx : P x) (hv : v.stringsValid) (h : decodeStruct names set x v = .ok y) :
    P y := by
  cases v with
  | null => cases h; exact hx
  | object ms =>
    induction ms generalizing x with
    | nil => cases h; exact hx
    | cons m ms ih =>
      obtain ⟨k, w⟩ := m
      rw [Value.stringsValid, Value.membersValid, Bool.and_eq_true, Bool.and_eq_true] at hv
      rw [decodeStruct, List.foldlM_cons] at h
      obtain ⟨x', hm, h⟩ := except_bind_eq_ok.mp h
      refine ih ?_ hv.2 h
      split at hm
      · exact hset _ _ _ _ hx hv.1.2 hm
      · cases hm; exact hx
  | _ => cases h

/-- Storing any value into a Go struct keeps every property of the struct that storing
a value into each of its fields keeps. -/
theorem decodeStruct_preserves {α : Type} {names : List Bytes}
    {set : α → Nat → Value → Except Error α} (P : α → Prop)
    (hset : ∀ x i w y, P x → set x i w = .ok y → P y) {x y : α} {v : Value} (hx : P x)
    (h : decodeStruct names set x v = .ok y) : P y := by
  cases v with
  | null => cases h; exact hx
  | object ms =>
    induction ms generalizing x with
    | nil => cases h; exact hx
    | cons m ms ih =>
      rw [decodeStruct, List.foldlM_cons] at h
      obtain ⟨x', hm, h⟩ := except_bind_eq_ok.mp h
      refine ih ?_ h
      split at hm
      · exact hset _ _ _ _ hx hm
      · cases hm; exact hx
  | _ => cases h

/-- Storing an array into a slice gives elements with every property that the zero value
and the slice's elements have and that storing a value into an element keeps. -/
theorem decodeElems_preserves {α : Type} {zero : α} {dec : α → Value → Except Error α}
    (P : α → Prop) (hz : P zero) (hdec : ∀ x w y, P x → dec x w = .ok y → P y) :
    ∀ {olds : List α} {vs : List Value} {ys : List α}, (∀ x ∈ olds, P x) →
      decodeElems zero dec olds vs = .ok ys → ∀ y ∈ ys, P y
  | _, [], _, _, h => by cases h; simp
  | olds, v :: vs, ys, hold, h => by
    simp only [decodeElems, except_bind_eq_ok, except_pure_eq_ok] at h
    obtain ⟨x, hx, xs, hxs, rfl⟩ := h
    have hhead : P (olds.headD zero) := by
      cases olds with
      | nil => exact hz
      | cons o _ => exact hold o (List.mem_cons_self _ _)
    intro y hy
    rcases List.mem_cons.mp hy with rfl | hy
    · exact hdec _ _ _ hhead hx
    · exact decodeElems_preserves P hz hdec (fun o ho => hold o (List.mem_of_mem_tail ho)) hxs y hy

end Mute.Json