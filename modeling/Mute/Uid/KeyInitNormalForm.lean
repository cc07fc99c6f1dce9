import Mute.Uid.KeyInitRoundTrip
import Mute.Encoding.JsonNormalForm

/-!
# KeyInit messages and session anchors read from JSON

`NewJSONKeyInit` stores the JSON value it reads into a `KeyInit` field by field. Every
string of that value is valid UTF-8 (`stringsValid_parse`), and every field it fills
either keeps the zero value or takes such a string, so every message it returns has valid
strings; and a message with valid strings is read back from its `JSON()` as itself.

- `Contents.valid_setField`, `KeyInit.valid_setField`: storing one field keeps the strings
  valid; **`newJSONKeyInit_valid`**: so does the whole of `NewJSONKeyInit`.
- **`newJSONKeyInit_json_eq_self`**: `NewJSONKeyInit(ki.JSON())` is `ki` exactly when the
  strings of `ki` are valid, and so for every message `NewJSONKeyInit` returns: a message
  passed on as its JSON is read as the message that was read.
- `unmarshalSessionAnchor_noPrivateKeys`: JSON carries no private key, so
  **`sessionAnchor_privateKey_panics`**: `PrivateKey()` panics on every anchor the
  consumer reads, and every key entry `KeyEntryECDHE25519` returns has no private key.
- **`verifySrvSig_republished`**: a key server that reads a message, signs its `JSON()`
  with `Sign` and passes that JSON on, has its signature accepted by `VerifySrvSig` on the
  message every reader reads from it.
-/

namespace Mute.Uid

open Json

/-! ## Storing a read value keeps strings valid -/

/-- Storing a value whose strings are valid into a field of KeyInit contents keeps the
contents' strings valid: each string field keeps its value or takes a string of the
value. -/
theorem Contents.valid_setField {c c' : Contents} {i : Nat} {w : Value} (hc : c.Valid)
    (hw : w.stringsValid) (h : c.setField i w = .ok c') : c'.Valid := by
  obtain ⟨h0, h5, h6, h7, h8⟩ := hc
  have hs : ∀ {old s}, Utf8.valid old → decodeString old w = .ok s → Utf8.valid s :=
    fun ho hd => valid_decodeString ho hw hd
  unfold Contents.Valid
  rcases i with _ | _ | _ | _ | _ | _ | _ | _ | _ | i <;>
    simp only [Contents.setField, except_bind_eq_ok, except_pure_eq_ok] at h
  · obtain ⟨s, hd, rfl⟩ := h; exact ⟨hs h0 hd, h5, h6, h7, h8⟩
  iterate 4 · obtain ⟨s, -, rfl⟩ := h; exact ⟨h0, h5, h6, h7, h8⟩
  · obtain ⟨s, hd, rfl⟩ := h; exact ⟨h0, hs h5 hd, h6, h7, h8⟩
  · obtain ⟨s, hd, rfl⟩ := h; exact ⟨h0, h5, hs h6 hd, h7, h8⟩
  · obtain ⟨s, hd, rfl⟩ := h; exact ⟨h0, h5, h6, hs h7 hd, h8⟩
  · obtain ⟨s, hd, rfl⟩ := h; exact ⟨h0, h5, h6, h7, hs h8 hd⟩
  · cases h; exact ⟨h0, h5, h6, h7, h8⟩

/-- The strings of a KeyInit message, its contents' and its signature, are valid UTF-8. -/
def KeyInit.Valid (ki : KeyInit) : Prop := ki.contents.Valid ∧ Utf8.valid ki.signature

theorem KeyInit.valid_setField {ki ki' : KeyInit} {i : Nat} {w : Value} (hk : ki.Valid)
    (hw : w.stringsValid) (h : ki.setField i w = .ok ki') : ki'.Valid := by
  obtain ⟨hc, hsig⟩ := hk
  rcases i with _ | _ | i <;> simp only [KeyInit.setField, except_bind_eq_ok, except_pure_eq_ok] at h
  · obtain ⟨c, hd, rfl⟩ := h
    exact ⟨valid_decodeStruct _ (fun _ _ _ _ => Contents.valid_setField) hc hw hd, hsig⟩
  · obtain ⟨s, hd, rfl⟩ := h
    exact ⟨hc, valid_decodeString hsig hw hd⟩
  · cases h; exact ⟨hc, hsig⟩

theorem KeyInit.valid_zero : KeyInit.zero.Valid :=
  ⟨⟨Utf8.valid_nil, Utf8.valid_nil, Utf8.valid_nil, Utf8.valid_nil, Utf8.valid_nil⟩, Utf8.valid_nil⟩

/-- **Every message `NewJSONKeyInit` returns has valid strings.** -/
theorem newJSONKeyInit_valid {t : Bytes} {ki : KeyInit} (h : newJSONKeyInit t = .ok ki) : ki.Valid := by
  unfold newJSONKeyInit unmarshal at h
  split at h
  · rename_i ki' hd
    cases h
    split at hd
    · rename_i v hv
      exact valid_decodeStruct _ (fun _ _ _ _ => KeyInit.valid_setField) KeyInit.valid_zero
        (stringsValid_parse hv) hd
    · cases hd
  · cases h

/-! ## Private keys are not read -/

theorem KeyEntry.privateKey_setField {ke ke' : KeyEntry} {i : Nat} {w : Value}
    (h : ke.setField i w = .ok ke') : ke'.privateKey = ke.privateKey := by
  rcases i with _ | _ | _ | _ | i <;>
    simp only [KeyEntry.setField, except_bind_eq_ok, except_pure_eq_ok] at h
  iterate 4 obtain ⟨_, -, rfl⟩ := h; rfl
  cases h; rfl

/-- No key entry of the anchor has a private key. -/
def SessionAnchor.NoPrivateKeys (sa : SessionAnchor) : Prop :=
  ∀ ke ∈ sa.pfkeys.getD [], ke.privateKey = none

theorem SessionAnchor.noPrivateKeys_setField {sa sa' : SessionAnchor} {i : Nat} {w : Value}
    (hsa : sa.NoPrivateKeys) (h : sa.setField i w = .ok sa') : sa'.NoPrivateKeys := by
  rcases i with _ | _ | _ | i <;>
    simp only [SessionAnchor.setField, except_bind_eq_ok, except_pure_eq_ok] at h
  iterate 2 obtain ⟨_, -, rfl⟩ := h; exact hsa
  · obtain ⟨pf, hpf, rfl⟩ := h
    cases w <;> simp only [decodeSlice, reduceCtorEq] at hpf
    · cases hpf; intro ke hke; cases hke
    · obtain ⟨kes, hkes, hpf⟩ := except_bind_eq_ok.mp hpf
      cases hpf
      exact decodeElems_preserves (fun ke : KeyEntry => ke.privateKey = none) rfl
        (fun _ _ _ hx hd => (decodeStruct_preserves (fun ke' : KeyEntry => ke'.privateKey = none)
          (fun _ _ _ _ hx' hs => (KeyEntry.privateKey_setField hs).trans hx') hx hd)) hsa hkes
  · cases h; exact hsa

/-- Every anchor read from JSON has no private keys, which JSON does not carry. -/
theorem unmarshalSessionAnchor_noPrivateKeys {t : Bytes} {sa : SessionAnchor}
    (h : unmarshalSessionAnchor t = .ok sa) : sa.NoPrivateKeys := by
  unfold unmarshalSessionAnchor unmarshal at h
  split at h
  · rename_i sa' hd
    cases h
    split at hd
    · exact decodeStruct_preserves _ (fun _ _ _ _ => SessionAnchor.noPrivateKeys_setField)
        (fun ke hke => by cases hke) hd
    · cases hd
  · cases h

/-- `PrivateKey()` panics on an anchor without private keys. -/
theorem SessionAnchor.isPanic_privateKey {sa : SessionAnchor} (h : sa.NoPrivateKeys) :
    sa.privateKey.isPanic = true := by
  unfold SessionAnchor.privateKey
  cases hk : sa.pfkeys.getD [] with
  | nil => simp [index]
  | cons ke kes =>
    have hke : ke.privateKey = none := h ke (hk ▸ List.mem_cons_self ke kes)
    simp [index, KeyEntry.privateKey32, hke]

section Consumer

variable {L : Lib}

theorem KeyInit.noPrivateKeys_sessionAnchor {ki : KeyInit} {sigPubKey : Bytes} {sa : SessionAnchor}
    (h : ki.sessionAnchor L sigPubKey = .ok sa) : sa.NoPrivateKeys := by
  unfold KeyInit.sessionAnchor at h
  obtain ⟨_, -, h⟩ := Outcome.bind_eq_ok.mp h
  dsimp only at h
  split_ifs at h
  obtain ⟨_, -, h⟩ := Outcome.bind_eq_ok.mp h
  obtain ⟨_, -, h⟩ := Outcome.bind_eq_ok.mp h
  obtain ⟨_, -, h⟩ := Outcome.bind_eq_ok.mp h
  obtain ⟨sa', hsa', h⟩ := Outcome.bind_eq_ok.mp h
  split_ifs at h
  cases h
  exact unmarshalSessionAnchor_noPrivateKeys hsa'

/-- **The consumer never gets a private key**: on every session anchor `SessionAnchor`
returns, for any message and key, `PrivateKey()` panics, and every key entry
`KeyEntryECDHE25519` returns has no private key, which the caller must set
(`FindKeyEntry` does, with `SetPrivateKey`). JSON carries no private key. -/
theorem sessionAnchor_privateKey_panics (ki : KeyInit) (sigPubKey : Bytes) :
    (∀ sa, ki.sessionAnchor L sigPubKey = .ok sa → sa.privateKey.isPanic = true) ∧
      ∀ ke, ki.keyEntryECDHE25519 L sigPubKey = .ok ke → ke.privateKey = none := by
  refine ⟨fun _ h => SessionAnchor.isPanic_privateKey (KeyInit.noPrivateKeys_sessionAnchor h),
    fun ke h => ?_⟩
  obtain ⟨sa, hsa, hke⟩ := Outcome.bind_eq_ok.mp h
  unfold SessionAnchor.keyEntry at hke
  split at hke
  · rename_i hf
    cases hke
    exact KeyInit.noPrivateKeys_sessionAnchor hsa _ (List.mem_of_find?_eq_some hf)
  · cases hke

end Consumer

/-! ## Read back as itself -/

section ReadBack

variable (L : Lib)

theorem newJSONKeyInit_json_of_valid {ki : KeyInit} (hk : ki.Valid) :
    newJSONKeyInit (ki.json L) = .ok ki := by
  rw [newJSONKeyInit_json, KeyInit.recode_of_valid hk.1 hk.2]

/-- **A KeyInit message read from JSON is in normal form**: `NewJSONKeyInit` reads a
message back from its `JSON()` as itself exactly when its strings are valid UTF-8, and so
for every message it returns. -/
theorem newJSONKeyInit_json_eq_self :
    (∀ ki : KeyInit, newJSONKeyInit (ki.json L) = .ok ki ↔ ki.Valid) ∧
      ∀ t ki, newJSONKeyInit t = .ok ki → newJSONKeyInit (ki.json L) = .ok ki :=
  ⟨fun _ => ⟨newJSONKeyInit_valid, newJSONKeyInit_json_of_valid L⟩,
    fun _ _ h => newJSONKeyInit_json_of_valid L (newJSONKeyInit_valid h)⟩

/-- **A server signature survives republication**: when a key server reads a message,
signs its `JSON()` and passes that JSON on, `VerifySrvSig` accepts the signature, under
the server's public key, on the message every reader reads from it. -/
theorem verifySrvSig_republished (srvKey : Bytes) {t : Bytes} {ki : KeyInit}
    (h : newJSONKeyInit t = .ok ki) :
    ∃ ki', newJSONKeyInit (ki.json L) = .ok ki' ∧
      ki'.verifySrvSig L (ki.sign L srvKey) (Base64.encode (L.ed25519.publicKey srvKey)) = .ok () :=
  ⟨ki, newJSONKeyInit_json_of_valid L (newJSONKeyInit_valid h), by
    simp [KeyInit.verifySrvSig, KeyInit.sign, Base64.decode_encode, L.ed25519.verify_sign]⟩

end ReadBack

/-- The empty object is read as the zero message, whose signature by the server key `[7]`
of `Lib.toy` is accepted on the message read back from its JSON. -/
theorem verifySrvSig_republished_toy :
    newJSONKeyInit (lit "\x7b\x7d") = .ok KeyInit.zero ∧
      ∃ ki', newJSONKeyInit (KeyInit.zero.json Lib.toy) = .ok ki' ∧
        ki'.verifySrvSig Lib.toy (KeyInit.zero.sign Lib.toy [7])
          (Base64.encode (Lib.toy.ed25519.publicKey [7])) = .ok () :=
  ⟨rfl, verifySrvSig_republished Lib.toy [7] (t := lit "\x7b\x7d") rfl⟩

end Mute.Uid
