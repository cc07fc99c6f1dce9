import Mute.Go
import Mathlib.Logic.Function.Iterate

/-!
# Block cipher modes (crypto/cipher)

The two modes of operation the aes256 package drives, over an abstract block cipher:

- `BlockCipher`: for each key a permutation of 16-byte blocks with its inverse; AES
  itself is not modelled, only these laws of it.
- `cbcEncrypterCryptBlocks`, `cbcDecrypterCryptBlocks`: `CryptBlocks` of
  `cipher.NewCBCEncrypter` and `cipher.NewCBCDecrypter`. Go's decrypter walks the blocks
  from the last one so that it can work in place; the blocks it writes are the same.
- `ctrXORKeyStream`: `XORKeyStream` of `cipher.NewCTR`: the text XORed with the
  encryptions of the counter blocks, the counter incremented as a 128-bit big-endian
  number after each block (`incCounter`, the loop in `ctr.refill`).

Both modes invert themselves on whole blocks (`cbc_decrypt_encrypt`, `ctr_xor_xor`), and
block `i` of the CTR keystream encrypts the counter block whose big-endian value is the
IV plus `i`, modulo `2^128` (`keystream_block_eq`).
-/

namespace Mute

/-- A block cipher (`cipher.Block`) on 16-byte blocks: encryption under each key is a
permutation of blocks, and `decrypt` is its inverse. -/
structure BlockCipher where
  encrypt : Bytes → Bytes → Bytes
  decrypt : Bytes → Bytes → Bytes
  length_encrypt : ∀ key b, b.length = 16 → (encrypt key b).length = 16
  length_decrypt : ∀ key b, b.length = 16 → (decrypt key b).length = 16
  decrypt_encrypt : ∀ key b, b.length = 16 → decrypt key (encrypt key b) = b
  encrypt_decrypt : ∀ key b, b.length = 16 → encrypt key (decrypt key b) = b

/-- The identity on blocks, a block cipher by the laws (so the laws can be met). -/
def BlockCipher.identity : BlockCipher where
  encrypt _ b := b
  decrypt _ b := b
  length_encrypt _ _ h := h
  length_decrypt _ _ h := h
  decrypt_encrypt _ _ _ := rfl
  encrypt_decrypt _ _ _ := rfl

/-- `subtle.XORBytes(dst, a, b)`: the first `min(len(a), len(b))` bytes of `a ^ b`. -/
def xorBytes (a b : Bytes) : Bytes := List.zipWith (· ^^^ ·) a b

theorem xor_xor_cancel (a b : UInt8) : a ^^^ b ^^^ b = a := by
  apply UInt8.eq_of_toBitVec_eq
  show (a.toBitVec ^^^ b.toBitVec) ^^^ b.toBitVec = a.toBitVec
  rw [BitVec.xor_assoc, BitVec.xor_self, BitVec.xor_zero]

theorem xor_right_comm (a b c : UInt8) : a ^^^ b ^^^ c = a ^^^ c ^^^ b := by
  apply UInt8.eq_of_toBitVec_eq
  show (a.toBitVec ^^^ b.toBitVec) ^^^ c.toBitVec = (a.toBitVec ^^^ c.toBitVec) ^^^ b.toBitVec
  rw [BitVec.xor_assoc, BitVec.xor_comm b.toBitVec, ← BitVec.xor_assoc]

@[simp] theorem length_xorBytes (a b : Bytes) : (xorBytes a b).length = min a.length b.length :=
  List.length_zipWith _ _ _

/-- XOR with the same pad twice is the identity, when the pad is long enough. -/
theorem xorBytes_xorBytes {a b : Bytes} (h : a.length ≤ b.length) :
    xorBytes (xorBytes a b) b = a := by
  induction a generalizing b with
  | nil => rfl
  | cons x xs ih =>
    cases b with
    | nil => simp at h
    | cons y ys =>
      simp only [xorBytes, List.zipWith_cons_cons, xor_xor_cancel, List.cons.injEq, true_and]
      exact ih (by simpa using h)

/-- Two pads XORed in either order, when the second is at least as long as the text. -/
theorem xorBytes_right_comm {a m k : Bytes} (hm : m.length = a.length) (hk : a.length ≤ k.length) :
    xorBytes (xorBytes a m) k = xorBytes (xorBytes a k) m := by
  induction a generalizing m k with
  | nil => rfl
  | cons x xs ih =>
    obtain _ | ⟨y, ys⟩ := m
    · simp at hm
    obtain _ | ⟨z, zs⟩ := k
    · simp at hk
    simp only [xorBytes, List.zipWith_cons_cons, xor_right_comm x y z, List.cons.injEq, true_and]
    exact ih (by simpa using hm) (by simpa using hk)

/-! ## CBC -/

/-- `CryptBlocks` of `cipher.NewCBCEncrypter(b, iv)` on `n` blocks of `src`: each block is
XORed with the previous ciphertext block, the IV for the first, and encrypted. -/
def cbcEncrypterCryptBlocks (enc : Bytes → Bytes) (iv : Bytes) : Nat → Bytes → Bytes
  | 0, _ => []
  | n + 1, src =>
    let c := enc (xorBytes (src.take 16) iv)
    c ++ cbcEncrypterCryptBlocks enc c n (src.drop 16)

/-- `CryptBlocks` of `cipher.NewCBCDecrypter(b, iv)` on `n` blocks of `src`: each block is
decrypted and XORed with the ciphertext block before it, the IV for the first. -/
def cbcDecrypterCryptBlocks (dec : Bytes → Bytes) (iv : Bytes) : Nat → Bytes → Bytes
  | 0, _ => []
  | n + 1, src =>
    let c := src.take 16
    xorBytes (dec c) iv ++ cbcDecrypterCryptBlocks dec c n (src.drop 16)

section
variable (B : BlockCipher) (key : Bytes)

theorem length_cbcEncrypterCryptBlocks (n : Nat) (iv src : Bytes) (hiv : iv.length = 16)
    (hsrc : src.length = 16 * n) :
    (cbcEncrypterCryptBlocks (B.encrypt key) iv n src).length = 16 * n := by
  induction n generalizing iv src with
  | zero => rfl
  | succ n ih =>
    have hc := B.length_encrypt key (xorBytes (src.take 16) iv) (by simp [hiv]; omega)
    have hrest : (src.drop 16).length = 16 * n := by simp [hsrc]; omega
    simp only [cbcEncrypterCryptBlocks, List.length_append, hc, ih _ _ hc hrest]
    omega

/-- CBC decryption undoes CBC encryption, block by block. -/
theorem cbc_decrypt_encrypt (n : Nat) (iv src : Bytes) (hiv : iv.length = 16)
    (hsrc : src.length = 16 * n) :
    cbcDecrypterCryptBlocks (B.decrypt key) iv n
      (cbcEncrypterCryptBlocks (B.encrypt key) iv n src) = src := by
  induction n generalizing iv src with
  | zero => simp_all [cbcEncrypterCryptBlocks, cbcDecrypterCryptBlocks]
  | succ n ih =>
    have hp : (src.take 16).length = 16 := by simp; omega
    have hx : (xorBytes (src.take 16) iv).length = 16 := by simp [hp, hiv]
    have hc := B.length_encrypt key _ hx
    have hrest : (src.drop 16).length = 16 * n := by simp [hsrc]; omega
    simp only [cbcEncrypterCryptBlocks, cbcDecrypterCryptBlocks, List.take_left' hc,
      List.drop_left' hc, B.decrypt_encrypt key _ hx, xorBytes_xorBytes (hp.trans hiv.symm).le,
      ih _ _ hc hrest, List.take_append_drop]

end

/-! ## CTR -/

/-- The increment of a little-endian byte string with carry: `x.ctr[i]++`, stopping at
the first byte that does not wrap to zero. -/
def incLE : Bytes → Bytes
  | [] => []
  | x :: xs => if x + 1 = 0 then 0 :: incLE xs else (x + 1) :: xs

/-- The next counter block: the counter as a big-endian number plus one (`ctr.refill`,
from the last byte to the first). -/
def incCounter (ctr : Bytes) : Bytes := (incLE ctr.reverse).reverse

@[simp] theorem length_incLE (b : Bytes) : (incLE b).length = b.length := by
  induction b with
  | nil => rfl
  | cons x xs ih => unfold incLE; split <;> simp [ih]

@[simp] theorem length_incCounter (b : Bytes) : (incCounter b).length = b.length := by
  simp [incCounter]

/-- A byte string as a little-endian number. -/
def leValue : Bytes → Nat
  | [] => 0
  | x :: xs => x.toNat + 256 * leValue xs

/-- A counter block as the big-endian number that `ctr.refill` increments. -/
def beValue (b : Bytes) : Nat := leValue b.reverse

theorem toNat_add_one (x : UInt8) : (x + 1).toNat = (x.toNat + 1) % 256 := rfl

theorem leValue_lt (b : Bytes) : leValue b < 256 ^ b.length := by
  induction b with
  | nil => decide
  | cons x xs ih =>
    have hx : x.toNat < 256 := x.toNat_lt_size
    rw [leValue, List.length_cons, pow_succ']
    omega

/-- Bytes of one length are equal when their values are. -/
theorem leValue_inj {a b : Bytes} (hl : a.length = b.length) (h : leValue a = leValue b) :
    a = b := by
  induction a generalizing b with
  | nil => cases b <;> simp_all
  | cons x xs ih =>
    obtain _ | ⟨y, ys⟩ := b
    · simp at hl
    have hx : x.toNat < 256 := x.toNat_lt_size
    have hy : y.toNat < 256 := y.toNat_lt_size
    simp only [leValue] at h
    rw [UInt8.toNat.inj (by omega : x.toNat = y.toNat),
      ih (Nat.succ.inj hl) (by omega : leValue xs = leValue ys)]

theorem beValue_inj {a b : Bytes} (hl : a.length = b.length) (h : beValue a = beValue b) :
    a = b :=
  List.reverse_inj.mp (leValue_inj (by simpa using hl) h)

/-- The carry loop adds one, modulo the width of the string. -/
theorem leValue_incLE (b : Bytes) : leValue (incLE b) = (leValue b + 1) % 256 ^ b.length := by
  induction b with
  | nil => rfl
  | cons x xs ih =>
    have hx : x.toNat < 256 := x.toNat_lt_size
    have hxs := leValue_lt xs
    rw [incLE, List.length_cons, pow_succ']
    split
    case isTrue hwrap =>
      have h255 : x.toNat = 255 := by
        have := congrArg UInt8.toNat hwrap
        rw [toNat_add_one, UInt8.toNat_zero] at this
        omega
      rw [leValue, leValue, ih, h255, UInt8.toNat_zero,
        show 255 + 256 * leValue xs + 1 = 256 * (leValue xs + 1) by omega, Nat.mul_mod_mul_left]
      omega
    case isFalse hwrap =>
      have h255 : x.toNat ≠ 255 := fun h =>
        hwrap (UInt8.toNat.inj (by rw [toNat_add_one, h]; rfl))
      rw [leValue, leValue, toNat_add_one, Nat.mod_eq_of_lt (by omega : x.toNat + 1 < 256),
        Nat.mod_eq_of_lt (by omega)]
      omega

theorem beValue_incCounter (b : Bytes) :
    beValue (incCounter b) = (beValue b + 1) % 256 ^ b.length := by
  rw [beValue, incCounter, List.reverse_reverse, leValue_incLE, List.length_reverse, beValue]

@[simp] theorem length_iterate_incCounter (b : Bytes) (i : Nat) :
    (incCounter^[i] b).length = b.length := by
  induction i with
  | zero => rfl
  | succ i ih => rw [Function.iterate_succ_apply', length_incCounter, ih]

/-- The counter incremented `i` times is the counter plus `i`, modulo its width. -/
theorem beValue_iterate_incCounter (b : Bytes) (i : Nat) :
    beValue (incCounter^[i] b) = (beValue b + i) % 256 ^ b.length := by
  induction i with
  | zero => exact (Nat.mod_eq_of_lt (by simpa using leValue_lt b.reverse)).symm
  | succ i ih =>
    rw [Function.iterate_succ_apply', beValue_incCounter, ih, length_iterate_incCounter,
      Nat.mod_add_mod, Nat.add_assoc]

/-- The first `n` keystream blocks from the counter block `ctr`. -/
def keystream (enc : Bytes → Bytes) : Nat → Bytes → Bytes
  | 0, _ => []
  | n + 1, ctr => enc ctr ++ keystream enc n (incCounter ctr)

/-- `XORKeyStream(dst, src)` of a fresh `cipher.NewCTR(b, iv)`: `src` XORed with as many
keystream blocks as it needs. -/
def ctrXORKeyStream (enc : Bytes → Bytes) (iv src : Bytes) : Bytes :=
  xorBytes src (keystream enc ((src.length + 15) / 16) iv)

theorem length_keystream (B : BlockCipher) (key : Bytes) (n : Nat) (ctr : Bytes)
    (h : ctr.length = 16) : (keystream (B.encrypt key) n ctr).length = 16 * n := by
  induction n generalizing ctr with
  | zero => rfl
  | succ n ih =>
    have hinc : (incCounter ctr).length = 16 := by simpa using h
    simp only [keystream, List.length_append, B.length_encrypt key ctr h, ih _ hinc]
    omega

@[simp] theorem length_ctrXORKeyStream (B : BlockCipher) (key iv src : Bytes)
    (h : iv.length = 16) : (ctrXORKeyStream (B.encrypt key) iv src).length = src.length := by
  simp only [ctrXORKeyStream, length_xorBytes, length_keystream B key _ _ h]
  omega

/-- Block `i` of the keystream is the encryption of the counter incremented `i` times. -/
theorem keystream_block (B : BlockCipher) (key : Bytes) {n i : Nat} (hi : i < n) (ctr : Bytes)
    (h : ctr.length = 16) :
    ((keystream (B.encrypt key) n ctr).drop (16 * i)).take 16 = B.encrypt key (incCounter^[i] ctr) := by
  obtain ⟨n, rfl⟩ : ∃ m, n = m + 1 := ⟨n - 1, by omega⟩
  have hc := B.length_encrypt key ctr h
  induction i generalizing n ctr with
  | zero => exact List.take_left' hc
  | succ i ih =>
    obtain ⟨n, rfl⟩ : ∃ m, n = m + 1 := ⟨n - 1, by omega⟩
    have hinc : (incCounter ctr).length = 16 := by simpa using h
    rw [keystream, show 16 * (i + 1) = (B.encrypt key ctr).length + 16 * i by rw [hc]; omega,
      List.drop_append, Function.iterate_succ_apply]
    exact ih _ hinc _ (by omega) (B.length_encrypt key _ hinc)

/-- **CTR mode counts in 128-bit big-endian**: block `i` of the keystream from a 16-byte IV
is the encryption of the one 16-byte block whose big-endian value is the IV's plus `i`,
modulo `2^128`. -/
theorem keystream_block_eq (B : BlockCipher) (key : Bytes) {iv ctr : Bytes} {n i : Nat}
    (hiv : iv.length = 16) (hctr : ctr.length = 16) (hv : beValue ctr = (beValue iv + i) % 2 ^ 128)
    (hi : i < n) :
    ((keystream (B.encrypt key) n iv).drop (16 * i)).take 16 = B.encrypt key ctr := by
  have hit : incCounter^[i] iv = ctr :=
    beValue_inj (by simp [hiv, hctr]) (by rw [beValue_iterate_incCounter, hiv, hv]; rfl)
  rw [keystream_block B key hi iv hiv, hit]

/-- CTR mode is its own inverse: the same keystream XORed twice. -/
theorem ctr_xor_xor (B : BlockCipher) (key iv src : Bytes) (h : iv.length = 16) :
    ctrXORKeyStream (B.encrypt key) iv (ctrXORKeyStream (B.encrypt key) iv src) = src := by
  have hlen := length_ctrXORKeyStream B key iv src h
  rw [ctrXORKeyStream, hlen, ctrXORKeyStream]
  exact xorBytes_xorBytes (by rw [length_keystream B key _ _ h]; omega)

end Mute
