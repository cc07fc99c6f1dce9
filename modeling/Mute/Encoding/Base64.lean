import Mute.Go
import Mathlib.Data.List.GetD

/-!
# Base64 (encode/base64)

`base64.Encode` and `base64.Decode` of the source's encode/base64 package, which are
`encoding/base64`'s `StdEncoding`: the standard alphabet, `=` padding, and a decoder that
skips `\r` and `\n` and is not strict about the bits a padded quantum drops.

- `encode`: groups of three bytes to four characters, a final group of one or two
  bytes padded with `=` (`Encoding.Encode`).
- `decode`: the inverse on four-character quanta; a character outside the alphabet,
  misplaced padding, anything after the padding or a quantum cut short is a
  `CorruptInputError` (`none`; the offset it carries is not modelled).
- **Round trip** `decode_encode`: decoding an encoding gives the bytes back, for
  every byte string. Every key and hash the source stores or compares goes through it.
-/

namespace Mute.Base64

/-- The standard alphabet, `encodeStd` of encoding/base64. -/
def encodeStd : Bytes :=
  lit "ABCDEFGHIJKLMNOPQRSTUVWXYZabcdefghijklmnopqrstuvwxyz0123456789+/"

/-- `enc.encode[i]`. -/
def encodeChar (i : Nat) : UInt8 := encodeStd.getD i 0

/-- `enc.decodeMap[c]`, built from the alphabet: the position of `c` in it
(`0xFF`, not in the alphabet, is `none`). -/
def decodeChar (c : UInt8) : Option Nat := encodeStd.indexOf? c

/-- `StdPadding`, the character `=`. -/
def padChar : UInt8 := 61

/-- The four characters of the 24 bits `val` (`val>>18&0x3F`, ..., `val&0x3F`). -/
def quantum (val : Nat) : Bytes :=
  [encodeChar (val / 2 ^ 18 % 64), encodeChar (val / 2 ^ 12 % 64),
    encodeChar (val / 2 ^ 6 % 64), encodeChar (val % 64)]

/-- `base64.Encode` (`StdEncoding.EncodeToString`). The bytes of a group are combined
with `+`, which is the source's `|` on these disjoint shifts. -/
def encode : Bytes → Bytes
  | a :: b :: c :: rest =>
    quantum (a.toNat * 2 ^ 16 + b.toNat * 2 ^ 8 + c.toNat) ++ encode rest
  | [a, b] => (quantum (a.toNat * 2 ^ 16 + b.toNat * 2 ^ 8)).take 3 ++ [padChar]
  | [a] => (quantum (a.toNat * 2 ^ 16)).take 2 ++ [padChar, padChar]
  | [] => []

/-- The 24 bits of four alphabet positions (`decodeQuantum`'s `val`). -/
def unquantum (i0 i1 i2 i3 : Nat) : Nat := i0 * 2 ^ 18 + i1 * 2 ^ 12 + i2 * 2 ^ 6 + i3

/-- `byte(val>>k)`. -/
def byteOf (val k : Nat) : UInt8 := UInt8.ofNat (val / 2 ^ k)

/-- Decoding of a newline-free input, quantum by quantum. -/
def decodeQuanta : Bytes → Option Bytes
  | [] => some []
  | c0 :: c1 :: c2 :: c3 :: rest =>
    if c2 = padChar then
      if c3 = padChar ∧ rest = [] then do
        let v := unquantum (← decodeChar c0) (← decodeChar c1) 0 0
        pure [byteOf v 16]
      else none
    else if c3 = padChar then
      if rest = [] then do
        let v := unquantum (← decodeChar c0) (← decodeChar c1) (← decodeChar c2) 0
        pure [byteOf v 16, byteOf v 8]
      else none
    else do
      let v := unquantum (← decodeChar c0) (← decodeChar c1) (← decodeChar c2)
        (← decodeChar c3)
      let tail ← decodeQuanta rest
      pure ([byteOf v 16, byteOf v 8, byteOf v 0] ++ tail)
  | _ => none

/-- `base64.Decode` (`StdEncoding.DecodeString`): `\r` and `\n` are skipped. -/
def decode (s : Bytes) : Option Bytes :=
  decodeQuanta (s.filter fun c => c != 10 && c != 13)

/-! ## The alphabet -/

theorem decodeChar_encodeChar {i : Nat} (h : i < 64) : decodeChar (encodeChar i) = some i := by
  have : ∀ j : Fin 64, decodeChar (encodeChar j) = some j := by decide
  exact this ⟨i, h⟩

theorem encodeChar_ne_pad {i : Nat} (h : i < 64) : encodeChar i ≠ padChar := by
  have : ∀ j : Fin 64, encodeChar j ≠ padChar := by decide
  exact this ⟨i, h⟩

@[simp] theorem decodeChar_encodeChar_mod (v : Nat) :
    decodeChar (encodeChar (v % 64)) = some (v % 64) :=
  decodeChar_encodeChar (Nat.mod_lt _ (by decide))

@[simp] theorem encodeChar_mod_ne_pad (v : Nat) : encodeChar (v % 64) ≠ padChar :=
  encodeChar_ne_pad (Nat.mod_lt _ (by decide))

/-- No character of an encoding is one the decoder skips. -/
theorem encodeChar_ne_newline (i : Nat) : encodeChar i ≠ 10 ∧ encodeChar i ≠ 13 := by
  by_cases h : i < 64
  · have : ∀ j : Fin 64, encodeChar j ≠ 10 ∧ encodeChar j ≠ 13 := by decide
    exact this ⟨i, h⟩
  · have hl : encodeStd.length ≤ i := by rw [show encodeStd.length = 64 from rfl]; omega
    rw [encodeChar, List.getD_eq_default _ _ hl]
    decide

theorem encode_filter_newline (b : Bytes) :
    (encode b).filter (fun c => c != 10 && c != 13) = encode b := by
  have : ∀ c ∈ encode b, c ≠ 10 ∧ c ≠ 13 := by
    induction b using encode.induct <;> simp_all [encode, quantum, padChar, encodeChar_ne_newline]
  exact List.filter_eq_self.mpr fun c hc => by simpa using this c hc

/-- Every character of the alphabet is ASCII. -/
theorem encodeChar_ascii (i : Nat) : (encodeChar i).toNat < 0x80 := by
  by_cases h : i < 64
  · have : ∀ j : Fin 64, (encodeChar j).toNat < 0x80 := by decide
    exact this ⟨i, h⟩
  · have hl : encodeStd.length ≤ i := by rw [show encodeStd.length = 64 from rfl]; omega
    rw [encodeChar, List.getD_eq_default _ _ hl]
    decide

/-- Base64 text is ASCII. -/
theorem encode_ascii (b : Bytes) : ∀ c ∈ encode b, c.toNat < 0x80 := by
  induction b using encode.induct <;> simp_all [encode, quantum, padChar, encodeChar_ascii, UInt8.size]

/-! ## Round trip -/

/-- The four positions of 24 bits give the bits back. -/
theorem unquantum_quantum {v : Nat} (hv : v < 2 ^ 24) :
    unquantum (v / 2 ^ 18 % 64) (v / 2 ^ 12 % 64) (v / 2 ^ 6 % 64) (v % 64) = v := by
  simp only [unquantum]; omega

theorem byteOf_eq {v k : Nat} {a : UInt8} (h : v / 2 ^ k % 256 = a.toNat) : byteOf v k = a :=
  UInt8.toNat.inj h

/-- **Round trip**: `base64.Decode(base64.Encode(b))` is `b`, for every byte string. -/
theorem decode_encode (b : Bytes) : decode (encode b) = some b := by
  rw [decode, encode_filter_newline]
  induction b using encode.induct with
  | case1 a b c rest ih =>
    have ha : a.toNat < 256 := a.toNat_lt_size
    have hb : b.toNat < 256 := b.toNat_lt_size
    have hc : c.toNat < 256 := c.toNat_lt_size
    have hv : a.toNat * 2 ^ 16 + b.toNat * 2 ^ 8 + c.toNat < 2 ^ 24 := by omega
    simp only [encode, quantum, List.cons_append, List.nil_append, List.append_eq, decodeQuanta,
      encodeChar_mod_ne_pad, if_false, decodeChar_encodeChar_mod, ih, Option.bind_eq_bind,
      Option.some_bind, unquantum_quantum hv, Option.pure_def, Option.some.injEq,
      List.cons.injEq, and_true]
    refine ⟨byteOf_eq ?_, byteOf_eq ?_, byteOf_eq ?_⟩ <;> simp only [Nat.reducePow] <;> omega
  | case2 a b =>
    have ha : a.toNat < 256 := a.toNat_lt_size
    have hb : b.toNat < 256 := b.toNat_lt_size
    simp only [encode, quantum, List.take, List.cons_append, List.nil_append, decodeQuanta,
      encodeChar_mod_ne_pad, if_false, if_true, and_self, decodeChar_encodeChar_mod,
      Option.bind_eq_bind, Option.some_bind, Option.pure_def, Option.some.injEq,
      List.cons.injEq, and_true]
    refine ⟨byteOf_eq ?_, byteOf_eq ?_⟩ <;> simp only [unquantum, Nat.reducePow] <;> omega
  | case3 a =>
    have ha : a.toNat < 256 := a.toNat_lt_size
    simp only [encode, quantum, List.take, List.cons_append, List.nil_append, decodeQuanta,
      if_true, and_self, decodeChar_encodeChar_mod, Option.bind_eq_bind, Option.some_bind,
      Option.pure_def, Option.some.injEq, List.cons.injEq, and_true]
    exact byteOf_eq (by simp only [unquantum, Nat.reducePow]; omega)
  | case4 => rfl

/-- Different byte strings have different encodings. -/
theorem encode_inj {a b : Bytes} : encode a = encode b ↔ a = b :=
  ⟨fun h => by simpa [decode_encode] using congrArg decode h, congrArg encode⟩

/-- An encoding is four characters for each started group of three bytes. -/
theorem length_encode (b : Bytes) : (encode b).length = 4 * ((b.length + 2) / 3) := by
  induction b using encode.induct <;> simp_all [encode, quantum]
  omega

end Mute.Base64
