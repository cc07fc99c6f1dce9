import Mute.Uid.KeyInit

/-!
# What the KeyInit consumer panics on

`KeyInit.SessionAnchor` decrypts `SESSIONANCHOR` with `aes256.CTRDecrypt`, which panics
on a ciphertext shorter than its 16-byte IV. `SessionAnchor` returns an error on every
other malformed field (text that is not base64, a wrong `SIGKEYHASH`, bad JSON, a wrong
`SESSIONANCHORHASH`), but it never checks the length of the decoded `SESSIONANCHOR`.
`SIGKEYHASH` is the hash of the hash of the public signature key, which anyone can
compute, so any KeyInit message reaches the decryption.

- `isPanic_sessionAnchor`: `SessionAnchor` panics exactly when `sigPubKey` decodes,
  `SIGKEYHASH` matches it and `SESSIONANCHOR` decodes to fewer than 16 bytes.
- **`keyInit_short_anchor_panics`**: on the message with an empty `SESSIONANCHOR` whose
  `SIGKEYHASH` matches the empty key, all three panic with "aes256: ciphertext too short",
  whatever the primitives.
-/

namespace Mute.Uid

open Json

variable (L : Lib)

theorem isPanic_unmarshalSessionAnchor (txt : Bytes) : (unmarshalSessionAnchor txt).isPanic = false := by
  unfold unmarshalSessionAnchor; split <;> rfl

/-- `CTRDecrypt` under such a key panics on a short ciphertext and decrypts any other. -/
theorem ctrDecrypt_sha512 (b enc : Bytes) :
    (Aes256.ctrDecrypt L.aes ((L.sha512 b).take 32) enc : Outcome Error Bytes) =
      if enc.length < 16 then .panic "aes256: ciphertext too short"
      else .ok (ctrXORKeyStream (L.aes.encrypt ((L.sha512 b).take 32)) (enc.take 16) (enc.drop 16)) := by
  rw [Aes256.ctrDecrypt, if_neg (by rw [length_take_sha512]; decide)]

/-- **`SessionAnchor` panics exactly on a matching `SIGKEYHASH` and a `SESSIONANCHOR` of
fewer than 16 bytes.** -/
theorem isPanic_sessionAnchor (ki : KeyInit) (sigPubKey : Bytes) :
    (ki.sessionAnchor L sigPubKey).isPanic = true ↔
      ∃ pubKey enc, Base64.decode sigPubKey = some pubKey ∧
        ki.contents.sigkeyhash = Base64.encode (L.sha512 (L.sha512 pubKey)) ∧
        Base64.decode ki.contents.sessionanchor = some enc ∧ enc.length < 16 := by
  unfold KeyInit.sessionAnchor
  cases hp : Base64.decode sigPubKey with
  | none => simp [decode64, hp]
  | some pubKey =>
    by_cases hh : ki.contents.sigkeyhash = Base64.encode (L.sha512 (L.sha512 pubKey))
    · cases he : Base64.decode ki.contents.sessionanchor with
      | none => simp [decode64, hp, hh, he]
      | some enc =>
        by_cases hs : enc.length < 16
        · simp [decode64, hp, hh, he, sliceTo_sha512, ctrDecrypt_sha512, hs]
        · simp only [decode64, hp, hh, he, sliceTo_sha512, ctrDecrypt_sha512, hs, ne_eq,
            not_true_eq_false, if_false, Outcome.ok_bind, Option.some.injEq, exists_and_left,
            exists_eq_left', false_and, and_false, iff_false, Bool.not_eq_true, exists_false]
          refine Outcome.isPanic_bind.mpr ⟨isPanic_unmarshalSessionAnchor _, fun a _ => ?_⟩
          split <;> rfl
    · simp [decode64, hp, hh]

/-- A KeyInit message anyone can write: an empty `SESSIONANCHOR`, and the `SIGKEYHASH` of
the empty signature key. -/
def shortAnchorKeyInit : KeyInit :=
  ⟨{ Contents.zero with sigkeyhash := Base64.encode (L.sha512 (L.sha512 [])) }, []⟩

theorem decode_nil : Base64.decode [] = some [] := rfl

/-- **The short `SESSIONANCHOR` reaches the panic of `CTRDecrypt`** in `SessionAnchor`,
`KeyEntryECDHE25519` and `Verify`, whatever the primitives. -/
theorem keyInit_short_anchor_panics (now : UInt64) :
    (shortAnchorKeyInit L).sessionAnchor L [] = .panic "aes256: ciphertext too short" ∧
    (shortAnchorKeyInit L).keyEntryECDHE25519 L [] = .panic "aes256: ciphertext too short" ∧
    (shortAnchorKeyInit L).verify L [[]] [] now = .panic "aes256: ciphertext too short" := by
  have h : (shortAnchorKeyInit L).sessionAnchor L [] = .panic "aes256: ciphertext too short" := by
    simp [KeyInit.sessionAnchor, shortAnchorKeyInit, Contents.zero, decode64, decode_nil,
      sliceTo_sha512, ctrDecrypt_sha512]
  refine ⟨h, ?_, ?_⟩
  · simp only [KeyInit.keyEntryECDHE25519, h, Outcome.panic_bind]
  · have hc : containsString [[]] (shortAnchorKeyInit L).contents.repouri = true := rfl
    simp only [KeyInit.verify, hc, h, Bool.not_true, Bool.false_eq_true, if_false,
      Outcome.panic_bind]

end Mute.Uid
