import Mute.Go

/-!
# UTF-8 as Go reads and writes it (unicode/utf8)

`encoding/json` walks a string rune by rune. It reads each rune with
`utf8.DecodeRune`, which takes a byte that starts no valid encoding as `RuneError`
of width one, and it writes runes back with `utf8.EncodeRune`. A string that goes
through JSON therefore comes back with each such byte replaced by U+FFFD.

- `decodeRune`, `encodeRune`, `valid`: `DecodeRune`, `EncodeRune` and `Valid`.
- `recode`: the string read rune by rune and written back, which is what decoding a
  JSON string does to the bytes it copies.
- `decodeRune_take_append`: a valid rune is read from its own bytes, whatever follows
  them; `encodeRune_decodeRune`: `EncodeRune` writes those bytes back.
- **`recode_of_valid`**: a valid string is its own recoding, while a byte such as
  `0xFF` becomes the three bytes of U+FFFD (`recode_ff`).
- `whole_encodeRune`: whatever rune it is given, `EncodeRune` writes one well-formed
  encoding, which stays valid before any valid string (`Whole.valid_append`).
-/

namespace Mute.Utf8

/-- `utf8.RuneError`, U+FFFD. -/
def runeError : Nat := 0xFFFD

/-- `first` and `acceptRanges` of unicode/utf8, for a byte of `0x80` or more: the width
of the sequence it starts and the bounds of the byte after it; `none` for a byte that
starts no sequence. -/
def leading (b : Nat) : Option (Nat × Nat × Nat) :=
  if b < 0xC2 then none
  else if b < 0xE0 then some (2, 0x80, 0xBF)
  else if b = 0xE0 then some (3, 0xA0, 0xBF)
  else if b = 0xED then some (3, 0x80, 0x9F)
  else if b < 0xF0 then some (3, 0x80, 0xBF)
  else if b = 0xF0 then some (4, 0x90, 0xBF)
  else if b < 0xF4 then some (4, 0x80, 0xBF)
  else if b = 0xF4 then some (4, 0x80, 0x8F)
  else none

/-- The bytes after a leading byte are in range: the first within `lo`–`hi`, the others
continuation bytes (`locb`–`hicb`). -/
def inRange (lo hi : Nat) : Bytes → Bool
  | [] => true
  | b :: rest => lo ≤ b.toNat && b.toNat ≤ hi && rest.all fun c => 0x80 ≤ c.toNat && c.toNat ≤ 0xBF

/-- The rune of a sequence of width `n`: the payload bits of the leading byte, then six
bits of each byte after it (`p0&mask3<<12 | b1&maskx<<6 | b2&maskx` and its kin; the
bits are disjoint, so `|` is `+`). -/
def runeOf (b0 n : Nat) (tail : Bytes) : Nat :=
  tail.foldl (fun r b => r * 64 + b.toNat % 64) (b0 % 2 ^ (7 - n))

/-- `utf8.DecodeRune(p)`: the rune at the start of `p` and its width. A sequence that is
invalid, overlong, a surrogate or cut short gives `(RuneError, 1)`, an empty `p`
`(RuneError, 0)`. -/
def decodeRune : Bytes → Nat × Nat
  | [] => (runeError, 0)
  | b0 :: rest =>
    if b0.toNat < 0x80 then (b0.toNat, 1)
    else match leading b0.toNat with
      | none => (runeError, 1)
      | some (n, lo, hi) =>
        if n - 1 ≤ rest.length ∧ inRange lo hi (rest.take (n - 1)) then
          (runeOf b0.toNat n (rest.take (n - 1)), n)
        else (runeError, 1)

/-- `utf8.EncodeRune(p, r)`: the bytes of rune `r`. A surrogate half or a value past
`MaxRune` is written as `RuneError`. -/
def encodeRune (r : Nat) : Bytes :=
  if r < 0x80 then [UInt8.ofNat r]
  else if r < 0x800 then [UInt8.ofNat (0xC0 + r / 64), UInt8.ofNat (0x80 + r % 64)]
  else if 0x10FFFF < r ∨ 0xD800 ≤ r ∧ r ≤ 0xDFFF then [0xEF, 0xBF, 0xBD]
  else if r < 0x10000 then
    [UInt8.ofNat (0xE0 + r / 4096), UInt8.ofNat (0x80 + r / 64 % 64), UInt8.ofNat (0x80 + r % 64)]
  else
    [UInt8.ofNat (0xF0 + r / 262144), UInt8.ofNat (0x80 + r / 4096 % 64),
      UInt8.ofNat (0x80 + r / 64 % 64), UInt8.ofNat (0x80 + r % 64)]

/-- A decoded rune is well formed unless it is `RuneError` of width one. -/
def Decoded (d : Nat × Nat) : Prop := d ≠ (runeError, 1)

instance (d : Nat × Nat) : Decidable (Decoded d) := inferInstanceAs (Decidable (_ ≠ _))

/-! ## Widths -/

theorem decodeRune_ascii {b : UInt8} (h : b.toNat < 0x80) (rest : Bytes) :
    decodeRune (b :: rest) = (b.toNat, 1) := by
  simp [decodeRune, h]

theorem leading_width {b n lo hi : Nat} (h : leading b = some (n, lo, hi)) : 2 ≤ n ∧ n ≤ 4 := by
  simp only [leading, ite_eq_iff, Option.some.injEq, Prod.mk.injEq, reduceCtorEq, and_false,
    false_or, or_false] at h
  omega

theorem decodeRune_snd_pos (b : UInt8) (rest : Bytes) : 0 < (decodeRune (b :: rest)).2 := by
  simp only [decodeRune]
  split_ifs
  · exact Nat.one_pos
  · split
    · exact Nat.one_pos
    · rename_i hl; have := leading_width hl; split_ifs <;> simp only <;> omega

theorem decodeRune_snd_le (b : UInt8) (rest : Bytes) :
    (decodeRune (b :: rest)).2 ≤ (b :: rest).length := by
  simp only [decodeRune]
  split_ifs
  · simp
  · split
    · simp
    · split_ifs with h <;> simp only [List.length_cons] <;> omega

/-- A loop that steps over one rune at a time ends. -/
theorem length_drop_decodeRune_lt (b : UInt8) (rest : Bytes) :
    ((b :: rest).drop (decodeRune (b :: rest)).2).length < (b :: rest).length := by
  have := decodeRune_snd_pos b rest
  rw [List.length_drop, List.length_cons]; omega

/-! ## Recoding -/

/-- `utf8.Valid(p)`: `p` is a sequence of well-formed encodings. -/
def valid : Bytes → Bool
  | [] => true
  | b :: rest => decide (Decoded (decodeRune (b :: rest))) &&
      valid ((b :: rest).drop (decodeRune (b :: rest)).2)
termination_by s => s.length
decreasing_by exact length_drop_decodeRune_lt _ _

/-- The string read rune by rune and each rune written back by `EncodeRune`: what
decoding a JSON string makes of the bytes it copies (`unquoteBytes`). -/
def recode : Bytes → Bytes
  | [] => []
  | b :: rest => encodeRune (decodeRune (b :: rest)).1 ++
      recode ((b :: rest).drop (decodeRune (b :: rest)).2)
termination_by s => s.length
decreasing_by exact length_drop_decodeRune_lt _ _

theorem valid_nil : valid [] = true := by rw [valid]

/-- `DecodeRune` on a sequence of width `n` whose bytes are in range. -/
theorem decodeRune_of_leading {b0 : UInt8} {rest : Bytes} {n lo hi : Nat}
    (ha : ¬b0.toNat < 0x80) (hl : leading b0.toNat = some (n, lo, hi))
    (hc : n - 1 ≤ rest.length ∧ inRange lo hi (rest.take (n - 1))) :
    decodeRune (b0 :: rest) = (runeOf b0.toNat n (rest.take (n - 1)), n) := by
  simp only [decodeRune, ha, hl, hc, and_self, if_true, if_false]

/-- A well-formed rune is read from its own bytes, whatever follows them. -/
theorem decodeRune_take_append {b0 : UInt8} {rest : Bytes} (h : Decoded (decodeRune (b0 :: rest)))
    (t : Bytes) :
    decodeRune ((b0 :: rest).take (decodeRune (b0 :: rest)).2 ++ t) = decodeRune (b0 :: rest) := by
  by_cases ha : b0.toNat < 0x80
  · simp [decodeRune, ha]
  · cases hl : leading b0.toNat with
    | none => simp [Decoded, decodeRune, ha, hl] at h
    | some w =>
      obtain ⟨n, lo, hi⟩ := w
      by_cases hc : n - 1 ≤ rest.length ∧ inRange lo hi (rest.take (n - 1))
      · have hk : (rest.take (n - 1) ++ t).take (n - 1) = rest.take (n - 1) := by
          rw [List.take_append_of_le_length (by rw [List.length_take, Nat.min_eq_left hc.1]),
            List.take_take, min_self]
        have hlen : n - 1 ≤ (rest.take (n - 1) ++ t).length := by
          rw [List.length_append, List.length_take, Nat.min_eq_left hc.1]; omega
        rw [decodeRune_of_leading ha hl hc, List.take_cons (by have := leading_width hl; omega),
          List.cons_append, decodeRune_of_leading ha hl (by rw [hk]; exact ⟨hlen, hc.2⟩), hk]
      · exact absurd (by simp only [decodeRune, ha, hl, hc, if_false]) h

/-! ## Writing a rune back -/

theorem ofNat_eq_of_toNat {x : Nat} {b : UInt8} (h : x = b.toNat) : UInt8.ofNat x = b :=
  UInt8.toNat.inj (by rw [UInt8.toNat_ofNat_of_lt (h ▸ b.toNat_lt_size), h])

theorem encodeRune_ascii {b : UInt8} (h : b.toNat < 0x80) : encodeRune b.toNat = [b] := by
  rw [encodeRune, if_pos h, ofNat_eq_of_toNat rfl]

theorem encodeRune_two {b0 b1 : UInt8} (h0 : 0xC2 ≤ b0.toNat ∧ b0.toNat ≤ 0xDF)
    (h1 : 0x80 ≤ b1.toNat ∧ b1.toNat ≤ 0xBF) : encodeRune (runeOf b0.toNat 2 [b1]) = [b0, b1] := by
  have hr : runeOf b0.toNat 2 [b1] = b0.toNat % 32 * 64 + b1.toNat % 64 := rfl
  rw [hr, encodeRune, if_neg (by omega), if_pos (by omega)]
  exact congrArg₂ _ (ofNat_eq_of_toNat (by omega)) (congrArg₂ _ (ofNat_eq_of_toNat (by omega)) rfl)

theorem encodeRune_three {b0 b1 b2 : UInt8} (h0 : 0xE0 ≤ b0.toNat ∧ b0.toNat ≤ 0xEF)
    (h1 : 0x80 ≤ b1.toNat ∧ b1.toNat ≤ 0xBF) (h2 : 0x80 ≤ b2.toNat ∧ b2.toNat ≤ 0xBF)
    (he0 : b0.toNat = 0xE0 → 0xA0 ≤ b1.toNat) (hed : b0.toNat = 0xED → b1.toNat ≤ 0x9F) :
    encodeRune (runeOf b0.toNat 3 [b1, b2]) = [b0, b1, b2] := by
  have hr : runeOf b0.toNat 3 [b1, b2] = (b0.toNat % 16 * 64 + b1.toNat % 64) * 64 + b2.toNat % 64 :=
    rfl
  rw [hr, encodeRune, if_neg (by omega), if_neg (by omega), if_neg (by omega), if_pos (by omega)]
  refine congrArg₂ _ (ofNat_eq_of_toNat (by omega)) (congrArg₂ _ (ofNat_eq_of_toNat (by omega))
    (congrArg₂ _ (ofNat_eq_of_toNat (by omega)) rfl))

theorem encodeRune_four {b0 b1 b2 b3 : UInt8} (h0 : 0xF0 ≤ b0.toNat ∧ b0.toNat ≤ 0xF4)
    (h1 : 0x80 ≤ b1.toNat ∧ b1.toNat ≤ 0xBF) (h2 : 0x80 ≤ b2.toNat ∧ b2.toNat ≤ 0xBF)
    (h3 : 0x80 ≤ b3.toNat ∧ b3.toNat ≤ 0xBF)
    (hf0 : b0.toNat = 0xF0 → 0x90 ≤ b1.toNat) (hf4 : b0.toNat = 0xF4 → b1.toNat ≤ 0x8F) :
    encodeRune (runeOf b0.toNat 4 [b1, b2, b3]) = [b0, b1, b2, b3] := by
  have hr : runeOf b0.toNat 4 [b1, b2, b3] =
      ((b0.toNat % 8 * 64 + b1.toNat % 64) * 64 + b2.toNat % 64) * 64 + b3.toNat % 64 := rfl
  rw [hr, encodeRune, if_neg (by omega), if_neg (by omega), if_neg (by omega), if_neg (by omega)]
  refine congrArg₂ _ (ofNat_eq_of_toNat (by omega)) (congrArg₂ _ (ofNat_eq_of_toNat (by omega))
    (congrArg₂ _ (ofNat_eq_of_toNat (by omega)) (congrArg₂ _ (ofNat_eq_of_toNat (by omega)) rfl)))

theorem leading_spec {b n lo hi : Nat} (h : leading b = some (n, lo, hi)) :
    (n = 2 ∧ 0xC2 ≤ b ∧ b ≤ 0xDF ∨ n = 3 ∧ 0xE0 ≤ b ∧ b ≤ 0xEF ∨ n = 4 ∧ 0xF0 ≤ b ∧ b ≤ 0xF4) ∧
      0x80 ≤ lo ∧ hi ≤ 0xBF ∧ (b = 0xE0 → lo = 0xA0) ∧ (b = 0xED → hi = 0x9F) ∧
      (b = 0xF0 → lo = 0x90) ∧ (b = 0xF4 → hi = 0x8F) := by
  simp only [leading, ite_eq_iff, Option.some.injEq, Prod.mk.injEq, reduceCtorEq, and_false,
    false_or, or_false] at h
  omega

/-- **`EncodeRune` writes a well-formed rune back as the bytes it was read from.** -/
theorem encodeRune_decodeRune {b0 : UInt8} {rest : Bytes} (h : Decoded (decodeRune (b0 :: rest))) :
    encodeRune (decodeRune (b0 :: rest)).1 = (b0 :: rest).take (decodeRune (b0 :: rest)).2 := by
  by_cases ha : b0.toNat < 0x80
  · rw [decodeRune_ascii ha, encodeRune_ascii ha]; rfl
  · cases hl : leading b0.toNat with
    | none => exact absurd (by simp only [decodeRune, ha, hl, if_false]) h
    | some w =>
      obtain ⟨n, lo, hi⟩ := w
      by_cases hc : n - 1 ≤ rest.length ∧ inRange lo hi (rest.take (n - 1))
      · rw [decodeRune_of_leading ha hl hc]
        obtain ⟨hlen, hin⟩ := hc
        obtain ⟨hw, hlo, hhi, he0, hed, hf0, hf4⟩ := leading_spec hl
        rcases hw with ⟨rfl, hb⟩ | ⟨rfl, hb⟩ | ⟨rfl, hb⟩
        · obtain _ | ⟨b1, rest⟩ := rest
          · simp at hlen
          simp only [Nat.reduceSub, List.take, inRange, List.all_nil, Bool.and_true,
            Bool.and_eq_true, decide_eq_true_eq] at hin ⊢
          exact encodeRune_two hb (by omega)
        · obtain _ | ⟨b1, _ | ⟨b2, rest⟩⟩ := rest
          iterate 2 simp at hlen
          simp only [Nat.reduceSub, List.take, inRange, List.all_cons, List.all_nil, Bool.and_true,
            Bool.and_eq_true, decide_eq_true_eq] at hin ⊢
          exact encodeRune_three hb (by omega) (by omega) (by omega) (by omega)
        · obtain _ | ⟨b1, _ | ⟨b2, _ | ⟨b3, rest⟩⟩⟩ := rest
          iterate 3 simp at hlen
          simp only [Nat.reduceSub, List.take, inRange, List.all_cons, List.all_nil, Bool.and_true,
            Bool.and_eq_true, decide_eq_true_eq] at hin ⊢
          exact encodeRune_four hb (by omega) (by omega) (by omega) (by omega) (by omega)
      · exact absurd (by simp only [decodeRune, ha, hl, hc, if_false]) h

/-! ## Recoding -/

/-- **A valid string is its own recoding.** -/
theorem recode_of_valid {s : Bytes} (h : valid s) : recode s = s := by
  induction s using recode.induct with
  | case1 => rw [recode]
  | case2 b rest ih =>
    rw [valid, Bool.and_eq_true, decide_eq_true_eq] at h
    rw [recode, encodeRune_decodeRune h.1, ih h.2, List.take_append_drop]

/-- An ASCII byte is its own rune. -/
theorem recode_ascii_cons {b : UInt8} (h : b.toNat < 0x80) (rest : Bytes) :
    recode (b :: rest) = b :: recode rest := by
  rw [recode, decodeRune_ascii h, encodeRune_ascii h]; rfl

/-- A string of ASCII bytes is valid. -/
theorem valid_of_ascii {s : Bytes} (h : ∀ c ∈ s, c.toNat < 0x80) : valid s := by
  induction s using valid.induct with
  | case1 => rw [valid]
  | case2 b rest ih =>
    have hb := h b (List.mem_cons_self b rest)
    have hd : decodeRune (b :: rest) = (b.toNat, 1) := by simp [decodeRune, hb]
    have hdrop : (b :: rest).drop (decodeRune (b :: rest)).2 = rest := by rw [hd]; rfl
    rw [hdrop] at ih
    rw [valid, hdrop, hd, Bool.and_eq_true, decide_eq_true_eq]
    exact ⟨by simp [Decoded, runeError]; omega, ih fun c hc => h c (List.mem_cons_of_mem b hc)⟩

/-- The byte `0xFF` starts no sequence: it comes back as U+FFFD. -/
theorem recode_ff : recode [0xFF] = [0xEF, 0xBF, 0xBD] := by
  simp [recode, decodeRune, leading, encodeRune, runeError]

/-! ## Writing gives valid UTF-8 -/

theorem decoded_of_snd_ne_one {d : Nat × Nat} (h : d.2 ≠ 1) : Decoded d :=
  fun e => h (by rw [e])

theorem decoded_of_fst_lt {d : Nat × Nat} (h : d.1 < 0x80) : Decoded d :=
  fun e => absurd (e ▸ h) (by decide)

/-- `p` is one well-formed encoding: `DecodeRune` reads all of it as one rune, whatever
follows. -/
def Whole (p : Bytes) : Prop :=
  ∀ t, Decoded (decodeRune (p ++ t)) ∧ (decodeRune (p ++ t)).2 = p.length

/-- A well-formed encoding followed by a valid string is valid. -/
theorem Whole.valid_append {p t : Bytes} (hp : Whole p) (ht : valid t) : valid (p ++ t) := by
  obtain ⟨hd, hw⟩ := hp t
  cases hpt : p ++ t with
  | nil => rw [valid]
  | cons b rest =>
    rw [valid, ← hpt, Bool.and_eq_true, decide_eq_true_eq, hw, List.drop_left]
    exact ⟨hd, ht⟩

theorem whole_ascii {b : UInt8} (h : b.toNat < 0x80) : Whole [b] := fun t => by
  rw [List.singleton_append, decodeRune_ascii h]
  exact ⟨decoded_of_fst_lt h, rfl⟩

theorem whole_of_leading {b0 : UInt8} {tail : Bytes} {n lo hi : Nat} (ha : ¬b0.toNat < 0x80)
    (hl : leading b0.toNat = some (n, lo, hi)) (hlen : tail.length = n - 1)
    (hin : inRange lo hi tail) : Whole (b0 :: tail) := fun t => by
  have hk : (tail ++ t).take (n - 1) = tail := List.take_left' hlen
  have hn := leading_width hl
  rw [List.cons_append, decodeRune_of_leading ha hl
    ⟨by rw [List.length_append]; omega, by rw [hk]; exact hin⟩]
  exact ⟨decoded_of_snd_ne_one (by dsimp only; omega), by rw [List.length_cons]; omega⟩

/-- Every byte from `0xC2` to `0xF4` starts a sequence; the byte after it has the
continuation bounds, except after `0xE0`, `0xED`, `0xF0` and `0xF4`. -/
theorem leading_of_range {b : Nat} (h : 0xC2 ≤ b ∧ b ≤ 0xF4) : ∃ n lo hi,
    leading b = some (n, lo, hi) ∧ (b ≠ 0xE0 → b ≠ 0xF0 → lo = 0x80) ∧
      (b ≠ 0xED → b ≠ 0xF4 → hi = 0xBF) := by
  cases hl : leading b with
  | none =>
    simp only [leading, ite_eq_iff, reduceCtorEq, and_true, and_false, false_or, or_false] at hl
    omega
  | some w =>
    obtain ⟨n, lo, hi⟩ := w
    refine ⟨n, lo, hi, rfl, ?_⟩
    simp only [leading, ite_eq_iff, Option.some.injEq, Prod.mk.injEq, reduceCtorEq, and_false,
      false_or, or_false] at hl
    omega

theorem toNat_ofNat_byte {x : Nat} (h : x < 256) : (UInt8.ofNat x).toNat = x :=
  UInt8.toNat_ofNat_of_lt h

theorem whole_two {b0 b1 : UInt8} (h0 : 0xC2 ≤ b0.toNat ∧ b0.toNat ≤ 0xDF)
    (h1 : 0x80 ≤ b1.toNat ∧ b1.toNat ≤ 0xBF) : Whole [b0, b1] := by
  obtain ⟨n, lo, hi, hl, hlo, hhi⟩ := leading_of_range (b := b0.toNat) (by omega)
  obtain ⟨hw, -⟩ := leading_spec hl
  exact whole_of_leading (by omega) hl (by simp only [List.length_singleton]; omega)
    (by simp only [inRange, List.all_nil, Bool.and_true, Bool.and_eq_true, decide_eq_true_eq]; omega)

theorem whole_three {b0 b1 b2 : UInt8} (h0 : 0xE0 ≤ b0.toNat ∧ b0.toNat ≤ 0xEF)
    (h1 : 0x80 ≤ b1.toNat ∧ b1.toNat ≤ 0xBF) (h2 : 0x80 ≤ b2.toNat ∧ b2.toNat ≤ 0xBF)
    (he0 : b0.toNat = 0xE0 → 0xA0 ≤ b1.toNat) (hed : b0.toNat = 0xED → b1.toNat ≤ 0x9F) :
    Whole [b0, b1, b2] := by
  obtain ⟨n, lo, hi, hl, hlo, hhi⟩ := leading_of_range (b := b0.toNat) (by omega)
  obtain ⟨hw, -, -, hle0, hled, -, -⟩ := leading_spec hl
  exact whole_of_leading (by omega) hl (by simp only [List.length_cons, List.length_nil]; omega)
    (by simp only [inRange, List.all_cons, List.all_nil, Bool.and_true, Bool.and_eq_true,
      decide_eq_true_eq]; omega)

theorem whole_four {b0 b1 b2 b3 : UInt8} (h0 : 0xF0 ≤ b0.toNat ∧ b0.toNat ≤ 0xF4)
    (h1 : 0x80 ≤ b1.toNat ∧ b1.toNat ≤ 0xBF) (h2 : 0x80 ≤ b2.toNat ∧ b2.toNat ≤ 0xBF)
    (h3 : 0x80 ≤ b3.toNat ∧ b3.toNat ≤ 0xBF)
    (hf0 : b0.toNat = 0xF0 → 0x90 ≤ b1.toNat) (hf4 : b0.toNat = 0xF4 → b1.toNat ≤ 0x8F) :
    Whole [b0, b1, b2, b3] := by
  obtain ⟨n, lo, hi, hl, hlo, hhi⟩ := leading_of_range (b := b0.toNat) (by omega)
  obtain ⟨hw, -, -, -, -, hlf0, hlf4⟩ := leading_spec hl
  exact whole_of_leading (by omega) hl (by simp only [List.length_cons, List.length_nil]; omega)
    (by simp only [inRange, List.all_cons, List.all_nil, Bool.and_true, Bool.and_eq_true,
      decide_eq_true_eq]; omega)

/-- **`EncodeRune` writes one well-formed encoding** for every `r`: its own bytes, or
those of `RuneError` for a surrogate half or a value past `MaxRune`. -/
theorem whole_encodeRune (r : Nat) : Whole (encodeRune r) := by
  unfold encodeRune
  split_ifs with h1 h2 h3 h4
  · exact whole_ascii (by rw [toNat_ofNat_byte (by omega)]; exact h1)
  · apply whole_two <;> simp (disch := omega) only [toNat_ofNat_byte] <;> omega
  · exact whole_three (by decide) (by decide) (by decide) (by decide) (by decide)
  · apply whole_three <;> simp (disch := omega) only [toNat_ofNat_byte] <;> omega
  · apply whole_four <;> simp (disch := omega) only [toNat_ofNat_byte] <;> omega

end Mute.Utf8
