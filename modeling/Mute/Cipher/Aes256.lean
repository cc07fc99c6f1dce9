import Mute.Cipher.Modes

/-!
# AES-256 in CBC and CTR mode (cipher/aes256/aes256.go)

`CBCEncrypt`, `CBCDecrypt`, `CTREncrypt`, `CTRDecrypt` and `CTRStream`, each with the
panics of the source: a key that is not 32 bytes, a CBC plaintext or ciphertext that is
not whole blocks, a ciphertext shorter than its IV, and a randomness source that runs dry
before the IV is read (`panic(err)`). The encryptions also return what is left of the
randomness source, which the source's callers read on from.

**Counter** (`ctrEncrypt_block`): after the IV, block `i` of a `CTREncrypt` ciphertext is
block `i` of the plaintext XORed with the encryption of the IV plus `i` as a 128-bit
big-endian number.

**Malleability** (`ctrDecrypt_xor`): a mask XORed into a CTR ciphertext after its IV
comes out XORed into the plaintext, so `CTRDecrypt` alone cannot detect a change.

**Round trip** (`aes256_roundtrip`): for every block cipher, 32-byte key, plaintext and
randomness source with 16 bytes to give, each mode's decryption returns the plaintext
(for CBC, of whole blocks) from a ciphertext of `16 + len(p)` bytes that starts with the
IV read from the source, and does not panic on it.
-/

namespace Mute.Aes256

variable {ε : Type} (B : BlockCipher)

/-- The panic of every function here on a key of the wrong length. -/
def keyLengthPanic : String := "aes256: AES-256 key is not 32 bytes long"

/-- `CBCEncrypt(key, plaintext, rand)`: the IV read from `rand`, then the CBC blocks. -/
def cbcEncrypt (key plaintext rand : Bytes) : Outcome ε (Bytes × Bytes) :=
  if key.length ≠ 32 then .panic keyLengthPanic
  else if plaintext.length % 16 ≠ 0 then
    .panic "aes256: plaintext is not a multiple of the block size"
  else match readFull rand 16 with
    | .error e => .panic e
    | .ok (iv, rest) =>
      .ok (iv ++ cbcEncrypterCryptBlocks (B.encrypt key) iv (plaintext.length / 16) plaintext,
        rest)

/-- `CBCDecrypt(key, ciphertext)`: the IV is the first block of the ciphertext. -/
def cbcDecrypt (key ciphertext : Bytes) : Outcome ε Bytes :=
  if key.length ≠ 32 then .panic keyLengthPanic
  else if ciphertext.length < 16 then .panic "aes256: ciphertext too short"
  else
    let iv := ciphertext.take 16
    let c := ciphertext.drop 16
    if c.length % 16 ≠ 0 then .panic "aes256: ciphertext is not a multiple of the block size"
    else .ok (cbcDecrypterCryptBlocks (B.decrypt key) iv (c.length / 16) c)

/-- `CTREncrypt(key, plaintext, rand)`: the IV read from `rand`, then the plaintext
XORed with the keystream from it. -/
def ctrEncrypt (key plaintext rand : Bytes) : Outcome ε (Bytes × Bytes) :=
  if key.length ≠ 32 then .panic keyLengthPanic
  else match readFull rand 16 with
    | .error e => .panic e
    | .ok (iv, rest) => .ok (iv ++ ctrXORKeyStream (B.encrypt key) iv plaintext, rest)

/-- `CTRDecrypt(key, ciphertext)`: the IV is the first block of the ciphertext. -/
def ctrDecrypt (key ciphertext : Bytes) : Outcome ε Bytes :=
  if key.length ≠ 32 then .panic keyLengthPanic
  else if ciphertext.length < 16 then .panic "aes256: ciphertext too short"
  else .ok (ctrXORKeyStream (B.encrypt key) (ciphertext.take 16) (ciphertext.drop 16))

/-- `CTRStream(key, iv)`: the new stream, as what its first `XORKeyStream` does. -/
def ctrStream (key iv : Bytes) : Outcome ε (Bytes → Bytes) :=
  if key.length ≠ 32 then .panic keyLengthPanic
  else if iv.length ≠ 16 then .panic "aes256: AES-256 IV is not 16 bytes long"
  else .ok (ctrXORKeyStream (B.encrypt key) iv)

/-- **`CTRDecrypt` is malleable**: XORing a mask into the body of a ciphertext, after its
IV, XORs the same mask into the plaintext, under every key; `CTRDecrypt` cannot tell that
the ciphertext was changed. -/
theorem ctrDecrypt_xor (key iv body mask : Bytes) (hiv : iv.length = 16)
    (hmask : mask.length = body.length) :
    (ctrDecrypt B key (iv ++ xorBytes body mask) : Outcome ε Bytes) =
      (fun p => xorBytes p mask) <$> ctrDecrypt B key (iv ++ body) := by
  have hlen : (xorBytes body mask).length = body.length := by simp [hmask]
  have h1 : ¬(iv ++ xorBytes body mask).length < 16 := by simp [hiv]
  have h2 : ¬(iv ++ body).length < 16 := by simp [hiv]
  by_cases hk : key.length ≠ 32
  · simp only [ctrDecrypt, if_pos hk, Outcome.map_panic]
  · rw [ctrDecrypt, ctrDecrypt, if_neg hk, if_neg h1, if_neg hk, if_neg h2, Outcome.map_ok,
      List.take_left' hiv, List.drop_left' hiv, List.take_left' hiv, List.drop_left' hiv,
      ctrXORKeyStream, ctrXORKeyStream, hlen]
    exact congrArg _ (xorBytes_right_comm hmask (by rw [length_keystream B key _ _ hiv]; omega))

/-- Under the identity cipher and a zero IV, flipping the low bit of the body flips it in
the plaintext. -/
theorem ctrDecrypt_xor_identity :
    (List.replicate 16 (0 : UInt8)).length = 16 ∧ [(1 : UInt8)].length = [(5 : UInt8)].length ∧
      (ctrDecrypt BlockCipher.identity (List.replicate 32 0)
          (List.replicate 16 0 ++ xorBytes [5] [1]) : Outcome Unit Bytes) =
        (fun p => xorBytes p [1]) <$>
          ctrDecrypt BlockCipher.identity (List.replicate 32 0) (List.replicate 16 0 ++ [5]) :=
  ⟨rfl, rfl, ctrDecrypt_xor BlockCipher.identity _ _ _ _ rfl rfl⟩

/-! ## Round trip -/

section RoundTrip

variable {key rand : Bytes} (hkey : key.length = 32) (hrand : 16 ≤ rand.length)
include hkey hrand

theorem ctr_roundtrip (p : Bytes) :
    ∃ c, (ctrEncrypt B key p rand : Outcome ε (Bytes × Bytes)) = .ok (c, rand.drop 16) ∧
      c.length = 16 + p.length ∧ c.take 16 = rand.take 16 ∧
      (ctrDecrypt B key c : Outcome ε Bytes) = .ok p := by
  have hiv : (rand.take 16).length = 16 := by simp; omega
  refine ⟨rand.take 16 ++ ctrXORKeyStream (B.encrypt key) (rand.take 16) p,
    by simp [ctrEncrypt, hkey, readFull_of_le hrand], ?_, List.take_left' hiv, ?_⟩
  · simp [length_ctrXORKeyStream B key _ _ hiv, hiv]
  · simp only [ctrDecrypt, hkey, List.length_append, hiv, List.take_left' hiv,
      List.drop_left' hiv, ctr_xor_xor B key _ p hiv]
    simp

theorem cbc_roundtrip (p : Bytes) (hp : p.length % 16 = 0) :
    ∃ c, (cbcEncrypt B key p rand : Outcome ε (Bytes × Bytes)) = .ok (c, rand.drop 16) ∧
      c.length = 16 + p.length ∧ c.take 16 = rand.take 16 ∧
      (cbcDecrypt B key c : Outcome ε Bytes) = .ok p := by
  have hiv : (rand.take 16).length = 16 := by simp; omega
  have hn : p.length = 16 * (p.length / 16) := by omega
  have hc := length_cbcEncrypterCryptBlocks B key _ _ _ hiv hn
  refine ⟨rand.take 16 ++ cbcEncrypterCryptBlocks (B.encrypt key) (rand.take 16) (p.length / 16) p,
    by simp [cbcEncrypt, hkey, hp, readFull_of_le hrand], ?_, List.take_left' hiv, ?_⟩
  · simp only [List.length_append, hiv, hc]; omega
  · have h16 : 16 * (p.length / 16) / 16 = p.length / 16 := by omega
    simp only [cbcDecrypt, hkey, List.length_append, hiv, hc, List.take_left' hiv,
      List.drop_left' hiv, h16, cbc_decrypt_encrypt B key _ _ _ hiv hn]
    simp [← hn, hp]

/-- **AES-256 round trip** in both modes. -/
theorem aes256_roundtrip (p : Bytes) :
    (∃ c, (ctrEncrypt B key p rand : Outcome ε (Bytes × Bytes)) = .ok (c, rand.drop 16) ∧
      c.length = 16 + p.length ∧ c.take 16 = rand.take 16 ∧
      (ctrDecrypt B key c : Outcome ε Bytes) = .ok p) ∧
    (p.length % 16 = 0 →
      ∃ c, (cbcEncrypt B key p rand : Outcome ε (Bytes × Bytes)) = .ok (c, rand.drop 16) ∧
        c.length = 16 + p.length ∧ c.take 16 = rand.take 16 ∧
        (cbcDecrypt B key c : Outcome ε Bytes) = .ok p) :=
  ⟨ctr_roundtrip B hkey hrand p, cbc_roundtrip B hkey hrand p⟩

end RoundTrip

/-- One whole block under the identity cipher, so that both modes run. -/
theorem aes256_roundtrip_identity :
    (List.replicate 32 (0 : UInt8)).length = 32 ∧ 16 ≤ (List.replicate 16 (1 : UInt8)).length ∧
    ((∃ c, (ctrEncrypt BlockCipher.identity (List.replicate 32 0) (List.replicate 16 7)
        (List.replicate 16 1) : Outcome Unit (Bytes × Bytes)) =
          .ok (c, (List.replicate 16 (1 : UInt8)).drop 16) ∧
        c.length = 16 + (List.replicate 16 (7 : UInt8)).length ∧
        c.take 16 = (List.replicate 16 (1 : UInt8)).take 16 ∧
        (ctrDecrypt BlockCipher.identity (List.replicate 32 0) c : Outcome Unit Bytes) =
          .ok (List.replicate 16 7)) ∧
      ((List.replicate 16 (7 : UInt8)).length % 16 = 0 →
        ∃ c, (cbcEncrypt BlockCipher.identity (List.replicate 32 0) (List.replicate 16 7)
          (List.replicate 16 1) : Outcome Unit (Bytes × Bytes)) =
            .ok (c, (List.replicate 16 (1 : UInt8)).drop 16) ∧
          c.length = 16 + (List.replicate 16 (7 : UInt8)).length ∧
          c.take 16 = (List.replicate 16 (1 : UInt8)).take 16 ∧
          (cbcDecrypt BlockCipher.identity (List.replicate 32 0) c : Outcome Unit Bytes) =
            .ok (List.replicate 16 7))) :=
  ⟨rfl, by decide,
    @aes256_roundtrip Unit BlockCipher.identity (List.replicate 32 0) (List.replicate 16 1) rfl
      (by decide) (List.replicate 16 7)⟩

/-- What a successful `CTREncrypt` returns: the IV, the first 16 bytes of the source, then
the plaintext XORed with the keystream from it. -/
theorem ctrEncrypt_eq_ok {key p rand c rest : Bytes}
    (h : (ctrEncrypt B key p rand : Outcome ε (Bytes × Bytes)) = .ok (c, rest)) :
    key.length = 32 ∧ 16 ≤ rand.length ∧
      c = rand.take 16 ++ ctrXORKeyStream (B.encrypt key) (rand.take 16) p := by
  have hkey : key.length = 32 := by
    by_contra hk; simp [ctrEncrypt, hk] at h
  have hrand : 16 ≤ rand.length := by
    by_contra hr
    obtain ⟨e, he⟩ := readFull_of_lt (Nat.lt_of_not_le hr)
    simp [ctrEncrypt, hkey, he] at h
  simp only [ctrEncrypt, hkey, ne_eq, not_true_eq_false, if_false, readFull_of_le hrand,
    Outcome.ok.injEq, Prod.mk.injEq] at h
  exact ⟨hkey, hrand, h.1.symm⟩

/-- **`CTREncrypt` counts in 128-bit big-endian**: after the IV, block `i` of a ciphertext
that `CTREncrypt` returned is block `i` of the plaintext XORed with the encryption of the
16-byte block whose big-endian value is the IV's plus `i`, modulo `2^128`. -/
theorem ctrEncrypt_block {key p rand c rest : Bytes}
    (h : (ctrEncrypt B key p rand : Outcome ε (Bytes × Bytes)) = .ok (c, rest))
    {i : Nat} (hi : 16 * i < p.length) {ctr : Bytes} (hctr : ctr.length = 16)
    (hv : beValue ctr = (beValue (c.take 16) + i) % 2 ^ 128) :
    ((c.drop 16).drop (16 * i)).take 16 =
      xorBytes ((p.drop (16 * i)).take 16) (B.encrypt key ctr) := by
  obtain ⟨-, hrand, rfl⟩ := ctrEncrypt_eq_ok B h
  have hiv : (rand.take 16).length = 16 := by simp; omega
  rw [List.take_left' hiv] at hv
  rw [List.drop_left' hiv, ctrXORKeyStream,
    ← keystream_block_eq B key hiv hctr hv (by omega : i < (p.length + 15) / 16)]
  simp only [xorBytes, List.drop_zipWith, List.take_zipWith]

/-- Two zero blocks under the identity cipher and a zero IV: the second block of the
ciphertext is the counter block 1. -/
theorem ctrEncrypt_block_identity :
    (ctrEncrypt BlockCipher.identity (List.replicate 32 0) (List.replicate 32 0)
        (List.replicate 16 0) : Outcome Unit (Bytes × Bytes)) =
      .ok (List.replicate 47 0 ++ [1], []) ∧
    16 * 1 < (List.replicate 32 (0 : UInt8)).length ∧
    (List.replicate 15 (0 : UInt8) ++ [1]).length = 16 ∧
    beValue (List.replicate 15 0 ++ [1]) =
      (beValue ((List.replicate 47 (0 : UInt8) ++ [1]).take 16) + 1) % 2 ^ 128 ∧
    (((List.replicate 47 (0 : UInt8) ++ [1]).drop 16).drop (16 * 1)).take 16 =
      xorBytes (((List.replicate 32 0).drop (16 * 1)).take 16)
        (BlockCipher.identity.encrypt (List.replicate 32 0) (List.replicate 15 0 ++ [1])) :=
  ⟨rfl, by decide, rfl, by decide,
    @ctrEncrypt_block Unit BlockCipher.identity _ _ (List.replicate 16 0) _ [] (by rfl) _
      (by decide) _ (by rfl) (by decide)⟩

/-- A ciphertext that `CTREncrypt` returned decrypts to its plaintext. -/
theorem ctrDecrypt_of_ctrEncrypt {key p rand c rest : Bytes}
    (h : (ctrEncrypt B key p rand : Outcome ε (Bytes × Bytes)) = .ok (c, rest)) :
    (ctrDecrypt B key c : Outcome ε Bytes) = .ok p := by
  obtain ⟨hkey, hrand, rfl⟩ := ctrEncrypt_eq_ok B h
  obtain ⟨c', h', -, -, hdec⟩ := ctr_roundtrip (ε := ε) B hkey hrand p
  simp only [ctrEncrypt, hkey, ne_eq, not_true_eq_false, if_false, readFull_of_le hrand,
    Outcome.ok.injEq, Prod.mk.injEq] at h'
  rwa [h'.1]

end Mute.Aes256
