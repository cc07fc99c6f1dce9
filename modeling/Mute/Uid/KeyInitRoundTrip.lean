import Mute.Uid.KeyInit
import Mute.Encoding.JsonNormalForm

/-!
# The consumer accepts what the producer made

`Message.keyInit` encrypts a session anchor under the first 32 bytes of the hash of the
signature public key, records `SIGKEYHASH` and `SESSIONANCHORHASH`, and signs the
contents. The consumer recomputes the key and `SIGKEYHASH` from the public key, decrypts
the anchor, reads it back from its JSON and recomputes `SESSIONANCHORHASH` over the JSON of
what it read. `json.Unmarshal` gives back every string recoded rune by rune
(`Utf8.recode`), so what the consumer reads is what the producer wrote when the strings are
valid UTF-8.

- `KeyEntry.recode`, `SessionAnchor.recode`, `Contents.recode`, `KeyInit.recode`: a struct
  as `json.Unmarshal` reads back its JSON; `unmarshalSessionAnchor_json` and
  `newJSONKeyInit_json`: reading back `json()` gives it.
- `sessionAnchor_eq_ok`, `keyInit_eq_ok`: what a successful producer did;
  `keyInit_produced`: the message as the consumer sees it, whose anchor `SessionAnchor`
  accepts exactly when the anchor's JSON read back hashes as the producer's.
- `Accepts`, `RoundTrip`: the consumer finds the key entry with the producer's hash and
  `Verify` accepts the message at every time up to `NOTAFTER`, for every list of
  repositories that holds `REPOURI`, as made and as read back from its JSON.
- **`keyInit_accepted`**: every run round-trips when the repository URI is valid UTF-8,
  and the addresses are too or `marshalSorted` writes a value and its recoding as one text
  (`Lib.WritesNormalForm`, which `Lib.toy` meets).
- **`keyInit_invalid_repoURI_rejected`**: a repository URI `"\xff"` breaks the round trip
  for every library.
- **`keyInit_check_iff`**: a message that `KeyInit` made passes `Check`, as made and as
  read back, only if its `msgcount` is 0.
-/

namespace Mute.Uid

open Json

/-! ## The structs as JSON gives them back -/

/-- A key entry as `json.Unmarshal` reads back its JSON: each field recoded, and no
private key, which is not written. -/
def KeyEntry.recode (ke : KeyEntry) : KeyEntry :=
  ⟨Utf8.recode ke.ciphersuite, Utf8.recode ke.function, Utf8.recode ke.hash,
    Utf8.recode ke.pubkey, none⟩

/-- A session anchor as `json.Unmarshal` reads back its JSON. -/
def SessionAnchor.recode (sa : SessionAnchor) : SessionAnchor :=
  ⟨Utf8.recode sa.mixaddress, Utf8.recode sa.nymaddress, sa.pfkeys.map (List.map KeyEntry.recode)⟩

/-- KeyInit contents as `json.Unmarshal` reads back their JSON. -/
def Contents.recode (c : Contents) : Contents :=
  { c with
    version := Utf8.recode c.version
    sigkeyhash := Utf8.recode c.sigkeyhash
    repouri := Utf8.recode c.repouri
    sessionanchor := Utf8.recode c.sessionanchor
    sessionanchorhash := Utf8.recode c.sessionanchorhash }

/-- A KeyInit message as `json.Unmarshal` reads back its JSON. -/
def KeyInit.recode (ki : KeyInit) : KeyInit := ⟨ki.contents.recode, Utf8.recode ki.signature⟩

/-- The keys of the structs' JSON are ASCII and read back as themselves. -/
theorem recode_lit {s : String} (h : ∀ c ∈ lit s, c.toNat < 0x80) : Utf8.recode (lit s) = lit s :=
  Utf8.recode_of_valid (Utf8.valid_of_ascii h)

theorem KeyEntry.toValue_recode (ke : KeyEntry) : ke.toValue.recode = ke.recode.toValue := by
  simp (disch := decide) only [KeyEntry.toValue, Value.recode, Value.recodeMembers, recode_lit,
    KeyEntry.recode]

theorem keyEntryValues_recode (kes : List KeyEntry) :
    Value.recodeElems (keyEntryValues kes) = keyEntryValues (kes.map KeyEntry.recode) := by
  induction kes with
  | nil => rfl
  | cons ke kes ih =>
    simp only [keyEntryValues, Value.recodeElems, KeyEntry.toValue_recode, ih, List.map_cons]

theorem SessionAnchor.toValue_recode (sa : SessionAnchor) : sa.toValue.recode = sa.recode.toValue := by
  rcases sa with ⟨mix, nym, _ | kes⟩ <;>
    simp (disch := decide) only [SessionAnchor.toValue, SessionAnchor.recode, Value.recode,
      Value.recodeMembers, recode_lit, keyEntryValues_recode, Option.map]

theorem Contents.toValue_recode (c : Contents) : c.toValue.recode = c.recode.toValue := by
  simp (disch := decide) only [Contents.toValue, Contents.recode, Value.recode,
    Value.recodeMembers, recode_lit]

theorem KeyInit.toValue_recode (ki : KeyInit) : ki.toValue.recode = ki.recode.toValue := by
  simp (disch := decide) only [KeyInit.toValue, KeyInit.recode, Value.recode.eq_1,
    Value.recode.eq_3, Value.recodeMembers, recode_lit, Contents.toValue_recode]

/-! ## Decoding the structs -/

theorem KeyEntry.decode_toValue (ke : KeyEntry) : KeyEntry.decode .zero ke.toValue = .ok ke.public :=
  rfl

theorem decodeElems_keyEntryValues (kes : List KeyEntry) :
    decodeElems KeyEntry.zero KeyEntry.decode [] (keyEntryValues (kes.map KeyEntry.recode)) =
      .ok (kes.map KeyEntry.recode) := by
  induction kes with
  | nil => rfl
  | cons ke kes ih =>
    simp only [List.map_cons, keyEntryValues, decodeElems, List.headD_nil, List.tail_nil,
      KeyEntry.decode_toValue, ih]
    rfl

theorem SessionAnchor.decode_toValue_recode (sa : SessionAnchor) :
    SessionAnchor.decode .zero sa.toValue.recode = .ok sa.recode := by
  have hk : fieldIndex SessionAnchor.fieldNames (lit "MIXADDRESS") = some 0 ∧
      fieldIndex SessionAnchor.fieldNames (lit "NYMADDRESS") = some 1 ∧
      fieldIndex SessionAnchor.fieldNames (lit "PFKEYS") = some 2 := by decide
  rw [SessionAnchor.toValue_recode]
  rcases sa with ⟨mix, nym, _ | kes⟩ <;>
    simp [SessionAnchor.decode, decodeStruct, SessionAnchor.toValue, SessionAnchor.recode, hk,
      SessionAnchor.setField, decodeString, decodeSlice, decodeElems_keyEntryValues, SessionAnchor.zero]

/-- An unsigned integer's literal is read back as the integer. -/
theorem decodeUint64_decimal (old x : UInt64) : decodeUint64 old (.number (decimal x.toNat)) = .ok x := by
  rw [decodeUint64, parseUint_decimal x.toNat_lt_size, UInt64.toNat.inj (UInt64.toNat_ofNat_of_lt x.toNat_lt_size)]

theorem Contents.decode_toValue (c : Contents) :
    decodeStruct Contents.fieldNames Contents.setField .zero c.toValue = .ok c := by
  have hk : fieldIndex Contents.fieldNames (lit "FALLBACK") = some 4 ∧
      fieldIndex Contents.fieldNames (lit "MSGCOUNT") = some 1 ∧
      fieldIndex Contents.fieldNames (lit "NOTAFTER") = some 2 ∧
      fieldIndex Contents.fieldNames (lit "NOTBEFORE") = some 3 ∧
      fieldIndex Contents.fieldNames (lit "REPOURI") = some 6 ∧
      fieldIndex Contents.fieldNames (lit "SESSIONANCHOR") = some 7 ∧
      fieldIndex Contents.fieldNames (lit "SESSIONANCHORHASH") = some 8 ∧
      fieldIndex Contents.fieldNames (lit "SIGKEYHASH") = some 5 ∧
      fieldIndex Contents.fieldNames (lit "VERSION") = some 0 := by decide
  simp [decodeStruct, Contents.toValue, hk, Contents.setField, decodeBool, decodeString,
    decodeUint64_decimal, Contents.zero]

theorem KeyInit.decode_toValue (ki : KeyInit) : KeyInit.decode .zero ki.toValue = .ok ki := by
  have hk : fieldIndex KeyInit.fieldNames (lit "Contents") = some 0 ∧
      fieldIndex KeyInit.fieldNames (lit "SIGNATURE") = some 1 := by decide
  simp [KeyInit.decode, decodeStruct.eq_2, KeyInit.toValue, hk, KeyInit.setField, decodeString,
    KeyInit.zero, Contents.decode_toValue]

/-! ## What `marshalSorted` is given -/

theorem KeyEntry.keysSorted_toValue (ke : KeyEntry) : ke.toValue.KeysSorted := by
  simp only [KeyEntry.toValue, Value.KeysSorted, Value.KeysSortedMembers, List.map_cons,
    List.map_nil, and_true]
  decide

theorem KeyEntry.wellFormed_toValue (ke : KeyEntry) : ke.toValue.WellFormed := by
  simp [KeyEntry.toValue, Value.WellFormed, Value.WellFormedMembers]

theorem keysSorted_keyEntryValues (kes : List KeyEntry) :
    Value.KeysSortedElems (keyEntryValues kes) := by
  induction kes with
  | nil => trivial
  | cons ke kes ih => exact (show _ ∧ _ from ⟨ke.keysSorted_toValue, ih⟩)

theorem wellFormed_keyEntryValues (kes : List KeyEntry) :
    Value.WellFormedElems (keyEntryValues kes) := by
  induction kes with
  | nil => trivial
  | cons ke kes ih => exact (show _ ∧ _ from ⟨ke.wellFormed_toValue, ih⟩)

theorem SessionAnchor.keysSorted_toValue (sa : SessionAnchor) : sa.toValue.KeysSorted := by
  rcases sa with ⟨mix, nym, _ | kes⟩ <;>
    simp only [SessionAnchor.toValue, Value.KeysSorted, Value.KeysSortedMembers, List.map_cons,
      List.map_nil, keysSorted_keyEntryValues, and_true] <;> decide

theorem SessionAnchor.wellFormed_toValue (sa : SessionAnchor) : sa.toValue.WellFormed := by
  rcases sa with ⟨mix, nym, _ | kes⟩ <;>
    simp [SessionAnchor.toValue, Value.WellFormed, Value.WellFormedMembers, wellFormed_keyEntryValues]

theorem Contents.keysSorted_toValue (c : Contents) : c.toValue.KeysSorted := by
  simp only [Contents.toValue, Value.KeysSorted, Value.KeysSortedMembers, List.map_cons,
    List.map_nil, and_true]
  decide

theorem Contents.wellFormed_toValue (c : Contents) : c.toValue.WellFormed := by
  simp [Contents.toValue, Value.WellFormed, Value.WellFormedMembers]

theorem KeyInit.keysSorted_toValue (ki : KeyInit) : ki.toValue.KeysSorted := by
  have hsig : (Value.string ki.signature).KeysSorted := trivial
  simp only [KeyInit.toValue, Value.KeysSorted.eq_2, Value.KeysSortedMembers, List.map_cons,
    List.map_nil, ki.contents.keysSorted_toValue, hsig, and_true]
  decide

theorem KeyInit.wellFormed_toValue (ki : KeyInit) : ki.toValue.WellFormed := by
  have hsig : (Value.string ki.signature).WellFormed := trivial
  simp only [KeyInit.toValue, Value.WellFormed.eq_3, Value.WellFormedMembers,
    ki.contents.wellFormed_toValue, hsig, and_self]

/-! ## Reading `json()` back -/

section ReadBack

variable (L : Lib)

/-- **The anchor `json()` wrote is read back recoded.** -/
theorem unmarshalSessionAnchor_json (sa : SessionAnchor) :
    unmarshalSessionAnchor (sa.json L) = .ok sa.recode := by
  rw [unmarshalSessionAnchor, unmarshal, SessionAnchor.json,
    L.parse_marshalSorted _ sa.wellFormed_toValue sa.keysSorted_toValue]
  simp only [SessionAnchor.decode_toValue_recode]

/-- **`NewJSONKeyInit(ki.JSON())` is the message recoded.** -/
theorem newJSONKeyInit_json (ki : KeyInit) : newJSONKeyInit (ki.json L) = .ok ki.recode := by
  rw [newJSONKeyInit, unmarshal, KeyInit.json,
    L.parse_marshalSorted _ ki.wellFormed_toValue ki.keysSorted_toValue]
  simp only [KeyInit.toValue_recode, KeyInit.decode_toValue]

end ReadBack

/-! ## Valid strings read back as themselves -/

/-- The strings of a key entry are valid UTF-8. -/
def KeyEntry.Valid (ke : KeyEntry) : Prop :=
  Utf8.valid ke.ciphersuite ∧ Utf8.valid ke.function ∧ Utf8.valid ke.hash ∧ Utf8.valid ke.pubkey

/-- The strings of KeyInit contents are valid UTF-8. -/
def Contents.Valid (c : Contents) : Prop :=
  Utf8.valid c.version ∧ Utf8.valid c.sigkeyhash ∧ Utf8.valid c.repouri ∧
    Utf8.valid c.sessionanchor ∧ Utf8.valid c.sessionanchorhash

theorem KeyEntry.recode_of_valid {ke : KeyEntry} (h : ke.Valid) : ke.recode = ke.public := by
  obtain ⟨h1, h2, h3, h4⟩ := h
  simp only [KeyEntry.recode, Utf8.recode_of_valid h1, Utf8.recode_of_valid h2,
    Utf8.recode_of_valid h3, Utf8.recode_of_valid h4]
  rfl

theorem keyEntryValues_recode_of_valid {kes : List KeyEntry} (h : ∀ ke ∈ kes, ke.Valid) :
    keyEntryValues (kes.map KeyEntry.recode) = keyEntryValues kes := by
  induction kes with
  | nil => rfl
  | cons ke kes ih =>
    simp only [List.map_cons, keyEntryValues, KeyEntry.recode_of_valid (h ke (List.mem_cons_self _ _)),
      ih fun k hk => h k (List.mem_cons_of_mem _ hk)]
    rfl

/-- An anchor whose strings are valid has the JSON of the anchor read back from it. -/
theorem SessionAnchor.toValue_recode_of_valid {sa : SessionAnchor} (hmix : Utf8.valid sa.mixaddress)
    (hnym : Utf8.valid sa.nymaddress) (hkes : ∀ ke ∈ sa.pfkeys.getD [], ke.Valid) :
    sa.recode.toValue = sa.toValue := by
  rcases sa with ⟨mix, nym, _ | kes⟩ <;>
    simp only [SessionAnchor.recode, SessionAnchor.toValue, Utf8.recode_of_valid hmix,
      Utf8.recode_of_valid hnym, Option.map, Option.getD_some] at hkes ⊢
  rw [keyEntryValues_recode_of_valid hkes]

theorem KeyInit.recode_of_valid {ki : KeyInit} (hc : ki.contents.Valid) (hsig : Utf8.valid ki.signature) :
    ki.recode = ki := by
  obtain ⟨h1, h2, h3, h4, h5⟩ := hc
  simp only [KeyInit.recode, Contents.recode, Utf8.recode_of_valid h1, Utf8.recode_of_valid h2,
    Utf8.recode_of_valid h3, Utf8.recode_of_valid h4, Utf8.recode_of_valid h5,
    Utf8.recode_of_valid hsig]

/-- Base64 text is valid UTF-8. -/
theorem valid_encode (b : Bytes) : Utf8.valid (Base64.encode b) :=
  Utf8.valid_of_ascii (Base64.encode_ascii b)

/-! ## What the producer did -/

section Producer

variable {L : Lib}

/-- What a successful `sessionAnchor` did: a new key entry from `rand`, the anchor holding
it encrypted under the first 32 bytes of `key` with an IV read on from `rand`, and the
hash of the anchor's JSON. -/
theorem sessionAnchor_eq_ok {key mixaddress nymaddress rand sa sah pubKeyHash privateKey rest : Bytes}
    (h : Message.sessionAnchor L key mixaddress nymaddress rand =
      .ok ((sa, sah, pubKeyHash, privateKey), rest)) :
    ∃ ke rand', L.initDHKey rand = .ok (ke, rand') ∧ 32 ≤ key.length ∧
      (∃ c, (Aes256.ctrEncrypt L.aes (key.take 32)
          ((SessionAnchor.mk mixaddress nymaddress (some [ke])).json L) rand' : Outcome Error _) =
            .ok (c, rest) ∧ sa = Base64.encode c) ∧
      sah = Base64.encode (L.sha512 ((SessionAnchor.mk mixaddress nymaddress (some [ke])).json L)) ∧
      pubKeyHash = ke.hash ∧ ∃ priv, ke.privateKey = some priv ∧ privateKey = Base64.encode priv := by
  unfold Message.sessionAnchor at h
  split at h
  · cases h
  · rename_i ke rand' hinit
    obtain ⟨k, hk, h1⟩ := Outcome.bind_eq_ok.mp h
    obtain ⟨⟨c, rand''⟩, hc, h2⟩ := Outcome.bind_eq_ok.mp h1
    obtain ⟨priv, hpriv, h3⟩ := Outcome.bind_eq_ok.mp h2
    obtain ⟨hlen, rfl⟩ := sliceTo_eq_ok.mp hk
    simp only [Outcome.pure_eq, Outcome.ok.injEq, Prod.mk.injEq] at h3
    obtain ⟨⟨rfl, rfl, rfl, rfl⟩, rfl⟩ := h3
    exact ⟨ke, rand', hinit, hlen, ⟨c, hc, rfl⟩, rfl, rfl, priv,
      KeyEntry.privateKey32_eq_ok.mp hpriv, rfl⟩

/-- What a successful `KeyInit` did: the time checks it passed, the first repository URI
it compared, the session anchor it made under the decoded `SIGKEY.HASH`, and the contents
and signature it wrote. -/
theorem keyInit_eq_ok {msg : Message} {msgcount notafter notbefore : UInt64} {fallback : Bool}
    {repoURI mixaddress nymaddress rand : Bytes} {now : UInt64} {ki : KeyInit}
    {pubKeyHash privateKey rest : Bytes}
    (h : msg.keyInit L msgcount notafter notbefore fallback repoURI mixaddress nymaddress rand now =
      .ok ((ki, pubKeyHash, privateKey), rest)) :
    notbefore < notafter ∧ now ≤ notafter ∧ notafter ≤ now + maxNotAfter ∧
      msg.repoURIs[0]? = some repoURI ∧ ∃ keyHash sa sah,
        Base64.decode msg.sigKeyHash = some keyHash ∧
        Message.sessionAnchor L keyHash mixaddress nymaddress rand =
          .ok ((sa, sah, pubKeyHash, privateKey), rest) ∧
        ki.contents = ⟨L.protocolVersion, msgcount, notafter, notbefore, fallback,
          Base64.encode (L.sha512 keyHash), repoURI, sa, sah⟩ ∧
        ki.signature = Base64.encode (L.ed25519.sign msg.sigKey (ki.contents.json L)) := by
  unfold Message.keyInit at h
  split_ifs at h with hb hn hf
  obtain ⟨keyHash, hkh, h1⟩ := Outcome.bind_eq_ok.mp h
  obtain ⟨uri, huri, h2⟩ := Outcome.bind_eq_ok.mp h1
  split_ifs at h2 with hu
  obtain ⟨⟨⟨sa, sah, pkh, priv⟩, rand'⟩, hsa, h3⟩ := Outcome.bind_eq_ok.mp h2
  simp only [Outcome.pure_eq, Outcome.ok.injEq, Prod.mk.injEq] at h3
  obtain ⟨⟨rfl, rfl, rfl⟩, rfl⟩ := h3
  rw [not_not] at hu
  subst hu
  exact ⟨UInt64.not_le.mp hb, UInt64.not_lt.mp hn, UInt64.not_lt.mp hf, index_eq_ok.mp huri,
    keyHash, sa, sah, decode64_eq_ok.mp hkh, hsa, rfl, rfl⟩

end Producer

/-! ## When the consumer succeeds -/

section Consumer

variable {L : Lib}

/-- **The consumer recomputes what the producer computed**: the key and `SIGKEYHASH` from
the signature public key, and `SESSIONANCHORHASH` over the JSON of the anchor it reads
back, which it accepts exactly when that JSON hashes as the producer's did. -/
theorem KeyInit.sessionAnchor_of_produced {ki : KeyInit} {sigPubKey pubKey c rand rest : Bytes}
    {sa : SessionAnchor} (hpub : Base64.decode sigPubKey = some pubKey)
    (hkh : ki.contents.sigkeyhash = Base64.encode (L.sha512 (L.sha512 pubKey)))
    (henc : (Aes256.ctrEncrypt L.aes ((L.sha512 pubKey).take 32) (sa.json L) rand : Outcome Error _) =
      .ok (c, rest))
    (hsa : ki.contents.sessionanchor = Base64.encode c)
    (hsah : ki.contents.sessionanchorhash = Base64.encode (L.sha512 (sa.json L))) :
    ki.sessionAnchor L sigPubKey =
      if L.sha512 (sa.json L) = L.sha512 (sa.recode.json L) then .ok sa.recode
      else .err .sessionAnchor := by
  simp [KeyInit.sessionAnchor, decode64, hpub, hkh, hsa, hsah, Base64.decode_encode, sliceTo_sha512,
    Aes256.ctrDecrypt_of_ctrEncrypt _ henc, unmarshalSessionAnchor_json, Base64.encode_inj]

/-- `Verify` returns nil when its repository check, the anchor, the key entry, the time
checks and the signature all pass. -/
theorem KeyInit.verify_eq_ok {ki : KeyInit} {uris : List Bytes} {sigPubKey : Bytes} {now : UInt64}
    {sa : SessionAnchor} {ke : KeyEntry} {sig pubKey : Bytes}
    (huri : containsString uris ki.contents.repouri = true)
    (hsa : ki.sessionAnchor L sigPubKey = .ok sa) (hke : sa.keyEntry (lit "ECDHE25519") = .ok ke)
    (hv : L.verifyKeyEntry ke = none) (hnb : ki.contents.notbefore < ki.contents.notafter)
    (hnow : now ≤ ki.contents.notafter) (hsig : Base64.decode ki.signature = some sig)
    (hpub : Base64.decode sigPubKey = some pubKey)
    (hok : L.ed25519.verify pubKey (ki.contents.json L) sig = true) :
    ki.verify L uris sigPubKey now = .ok () := by
  simp [KeyInit.verify, huri, hsa, hke, hv, UInt64.not_le.mpr hnb, UInt64.not_lt.mpr hnow, decode64,
    hsig, hpub, hok]

theorem SessionAnchor.keyEntry_single {ke : KeyEntry} {function : Bytes} (h : ke.function = function)
    (mixaddress nymaddress : Bytes) :
    (SessionAnchor.mk mixaddress nymaddress (some [ke])).keyEntry function = .ok ke := by
  simp [SessionAnchor.keyEntry, h]

/-- **A message `KeyInit` made, as the consumer sees it**: for a UID message that keeps the
uid package's invariants, the contents hold the producer's hashes and encrypted anchor, and
`SessionAnchor` returns the anchor read back from its JSON exactly when that JSON hashes as
the producer's did. -/
theorem keyInit_produced {msg : Message} {msgcount notafter notbefore : UInt64} {fallback : Bool}
    {repoURI mixaddress nymaddress rand : Bytes} {now : UInt64} {ki : KeyInit}
    {pubKeyHash privateKey rest : Bytes}
    (hpub : msg.sigPubKey = Base64.encode (L.ed25519.publicKey msg.sigKey))
    (hhash : msg.sigKeyHash = Base64.encode (L.sha512 (L.ed25519.publicKey msg.sigKey)))
    (hok : msg.keyInit L msgcount notafter notbefore fallback repoURI mixaddress nymaddress rand now =
      .ok ((ki, pubKeyHash, privateKey), rest)) :
    ∃ ke rand' c, L.initDHKey rand = .ok (ke, rand') ∧ pubKeyHash = ke.hash ∧
      ki.contents = ⟨L.protocolVersion, msgcount, notafter, notbefore, fallback,
        Base64.encode (L.sha512 (L.sha512 (L.ed25519.publicKey msg.sigKey))), repoURI,
        Base64.encode c,
        Base64.encode (L.sha512 ((SessionAnchor.mk mixaddress nymaddress (some [ke])).json L))⟩ ∧
      ki.signature = Base64.encode (L.ed25519.sign msg.sigKey (ki.contents.json L)) ∧
      ki.sessionAnchor L msg.sigPubKey =
        if L.sha512 ((SessionAnchor.mk mixaddress nymaddress (some [ke])).json L) =
            L.sha512 ((SessionAnchor.mk mixaddress nymaddress (some [ke])).recode.json L)
        then .ok (SessionAnchor.mk mixaddress nymaddress (some [ke])).recode
        else .err .sessionAnchor := by
  obtain ⟨-, -, -, -, keyHash, sa, sah, hkh, hsa, hc, hsig⟩ := keyInit_eq_ok hok
  rw [hhash, Base64.decode_encode, Option.some.injEq] at hkh
  subst hkh
  obtain ⟨ke, rand', hinit, -, ⟨c, henc, rfl⟩, rfl, rfl, -⟩ := sessionAnchor_eq_ok hsa
  have hpk : Base64.decode msg.sigPubKey = some (L.ed25519.publicKey msg.sigKey) := by
    rw [hpub, Base64.decode_encode]
  exact ⟨ke, rand', c, hinit, rfl, hc, hsig,
    KeyInit.sessionAnchor_of_produced hpk (by rw [hc]) henc (by rw [hc]) (by rw [hc])⟩

end Consumer

/-! ## The consumer accepts what the producer made -/

/-- The consumer accepts `ki` as the message made for `repoURI` with `NOTAFTER` `notafter`
and the key entry hash `pubKeyHash`: `KeyEntryECDHE25519` returns an entry with that hash,
and `Verify` returns nil at every time up to `notafter`, for every list of repositories
that holds `repoURI`. -/
def Accepts (L : Lib) (ki : KeyInit) (sigPubKey repoURI : Bytes) (notafter : UInt64)
    (pubKeyHash : Bytes) : Prop :=
  (∃ ke, ki.keyEntryECDHE25519 L sigPubKey = .ok ke ∧ ke.hash = pubKeyHash) ∧
    ∀ uris t, containsString uris repoURI = true → t ≤ notafter →
      ki.verify L uris sigPubKey t = .ok ()

/-- One run of `KeyInit` round-trips: the message it makes, if it makes one, is accepted as
made and as read back from its JSON. -/
def RoundTrip (L : Lib) (msg : Message) (msgcount notafter notbefore : UInt64) (fallback : Bool)
    (repoURI mixaddress nymaddress rand : Bytes) (now : UInt64) : Prop :=
  ∀ ki pubKeyHash privateKey rest,
    msg.keyInit L msgcount notafter notbefore fallback repoURI mixaddress nymaddress rand now =
      .ok ((ki, pubKeyHash, privateKey), rest) →
    Accepts L ki msg.sigPubKey repoURI notafter pubKeyHash ∧
      ∃ ki', newJSONKeyInit (ki.json L) = .ok ki' ∧
        Accepts L ki' msg.sigPubKey repoURI notafter pubKeyHash

/-- **Every run of `KeyInit` round-trips** when the UID message keeps the uid package's
invariants, the repository URI is valid UTF-8, and the addresses are valid UTF-8 or
`marshalSorted` writes a value and its recoding as one text. -/
theorem keyInit_accepted (L : Lib) (msg : Message) (msgcount notafter notbefore : UInt64)
    (fallback : Bool) (repoURI mixaddress nymaddress rand : Bytes) (now : UInt64)
    (hpub : msg.sigPubKey = Base64.encode (L.ed25519.publicKey msg.sigKey))
    (hhash : msg.sigKeyHash = Base64.encode (L.sha512 (L.ed25519.publicKey msg.sigKey)))
    (haddr : (Utf8.valid mixaddress ∧ Utf8.valid nymaddress) ∨ L.WritesNormalForm)
    (hrepo : Utf8.valid repoURI) :
    RoundTrip L msg msgcount notafter notbefore fallback repoURI mixaddress nymaddress rand now := by
  intro ki pubKeyHash privateKey rest hok
  have hnb := (keyInit_eq_ok hok).1
  obtain ⟨ke, rand', c, hinit, rfl, hc, hsig, hanchor⟩ := keyInit_produced hpub hhash hok
  obtain ⟨hfun, -, h1, h2, h3, h4, hv⟩ := L.initDHKey_spec _ _ _ hinit
  have hke : ke.recode = ke.public := KeyEntry.recode_of_valid ⟨h1, h2, h3, h4⟩
  have hread : (SessionAnchor.mk mixaddress nymaddress (some [ke])).recode.json L =
      (SessionAnchor.mk mixaddress nymaddress (some [ke])).json L := by
    rcases haddr with ⟨hmix, hnym⟩ | hnf
    · rw [SessionAnchor.json, SessionAnchor.json,
        SessionAnchor.toValue_recode_of_valid hmix hnym (by simpa using ⟨h1, h2, h3, h4⟩)]
    · rw [SessionAnchor.json, SessionAnchor.json, ← SessionAnchor.toValue_recode,
        hnf _ (SessionAnchor.wellFormed_toValue _)]
  rw [hread, if_pos rfl] at hanchor
  have hpk : Base64.decode msg.sigPubKey = some (L.ed25519.publicKey msg.sigKey) := by
    rw [hpub, Base64.decode_encode]
  have hentry : (SessionAnchor.mk mixaddress nymaddress (some [ke])).recode.keyEntry
      (lit "ECDHE25519") = .ok ke.public := by
    simp only [SessionAnchor.recode, Option.map_some', List.map_cons, List.map_nil, hke]
    exact SessionAnchor.keyEntry_single (show ke.public.function = _ from hfun) _ _
  have hacc : Accepts L ki msg.sigPubKey repoURI notafter ke.hash := by
    refine ⟨⟨ke.public, by simp [KeyInit.keyEntryECDHE25519, hanchor, hentry], rfl⟩,
      fun uris t huri ht => KeyInit.verify_eq_ok (by rwa [hc]) hanchor hentry hv (by rwa [hc])
        (by rwa [hc]) (by rw [hsig, Base64.decode_encode]) hpk (L.ed25519.verify_sign _ _)⟩
  refine ⟨hacc, ki, ?_, hacc⟩
  rw [newJSONKeyInit_json, KeyInit.recode_of_valid _ (by rw [hsig]; exact valid_encode _)]
  rw [hc]
  exact ⟨L.valid_protocolVersion, valid_encode _, hrepo, valid_encode _, valid_encode _⟩

/-- `KeyInit` succeeds once its time checks pass, `SIGKEY.HASH` decodes to at least 32
bytes, `repoURI` is the first repository URI, and `rand` yields the 32 bytes of the new key
and the 16 of the IV. -/
theorem keyInit_ok (L : Lib) (msg : Message) (msgcount notafter notbefore : UInt64) (fallback : Bool)
    (repoURI mixaddress nymaddress rand : Bytes) (now : UInt64) {keyHash : Bytes}
    (hnb : notbefore < notafter) (hnow : now ≤ notafter) (hmax : notafter ≤ now + maxNotAfter)
    (hkh : Base64.decode msg.sigKeyHash = some keyHash) (hlen : 32 ≤ keyHash.length)
    (huri : msg.repoURIs[0]? = some repoURI) (hrand : 48 ≤ rand.length) :
    ∃ ki pubKeyHash privateKey rest, msg.keyInit L msgcount notafter notbefore fallback repoURI
      mixaddress nymaddress rand now = .ok ((ki, pubKeyHash, privateKey), rest) := by
  obtain ⟨ke, hinit⟩ := L.initDHKey_ok rand (by omega)
  obtain ⟨-, hpriv, -⟩ := L.initDHKey_spec _ _ _ hinit
  obtain ⟨priv, hpriv⟩ := Option.isSome_iff_exists.mp hpriv
  obtain ⟨c, henc, -⟩ := Aes256.ctr_roundtrip (ε := Error) L.aes
    (show (keyHash.take 32).length = 32 by simp; omega)
    (show 16 ≤ (rand.drop 32).length by simp; omega)
    ((SessionAnchor.mk mixaddress nymaddress (some [ke])).json L)
  simp [Message.keyInit, UInt64.not_le.mpr hnb, UInt64.not_lt.mpr hnow, UInt64.not_lt.mpr hmax,
    decode64, hkh, (index_eq_ok (ε := Error)).mpr huri, Message.sessionAnchor, hinit,
    sliceTo_of_le hlen, henc, KeyEntry.privateKey32, hpriv]

/-! ## A library to run on -/

/-- A library that meets every law of `Lib`: as `marshalSorted`, the JSON encoder run on
the value read back (a `marshalSorted` that marshals, reads back and marshals again), the
identity as the block cipher, a hash that starts with the length of its input, and
stand-ins for Ed25519 and the key entry methods. -/
def Lib.toy : Lib where
  sha512 b := UInt8.ofNat b.length :: (b ++ List.replicate 63 0).take 63
  length_sha512 b := by simp
  aes := BlockCipher.identity
  marshalSorted v := encode v.recode
  parse_marshalSorted _ h _ := (parse_encode_eq_self_iff (Value.wellFormed_recode h)).2 _ (parse_encode h)
  ed25519 := ⟨id, fun sk m => sk ++ m, fun pk m s => s == pk ++ m, fun _ _ => by simp⟩
  initDHKey rand :=
    if 32 ≤ rand.length then
      .ok (⟨lit "CURVE25519 XSALSA20 POLY1305", lit "ECDHE25519", Base64.encode (rand.take 32),
        Base64.encode (rand.take 32), some (rand.take 32)⟩, rand.drop 32)
    else .error (lit "unexpected EOF")
  initDHKey_ok _ h := ⟨_, if_pos h⟩
  verifyKeyEntry _ := none
  initDHKey_spec rand ke rest h := by
    dsimp only at h
    split_ifs at h
    cases h
    exact ⟨rfl, rfl, Utf8.valid_of_ascii (s := lit "CURVE25519 XSALSA20 POLY1305") (by decide),
      Utf8.valid_of_ascii (s := lit "ECDHE25519") (by decide), valid_encode _, valid_encode _, rfl⟩
  protocolVersion := lit "1.0"
  valid_protocolVersion := Utf8.valid_of_ascii (by decide)

/-- `Lib.toy` writes a value and its recoding as one text: what it reads back is in normal
form. -/
theorem Lib.toy_writesNormalForm : Lib.toy.WritesNormalForm := fun v h => by
  show encode v.recode.recode = encode v.recode
  rw [Value.recode_of_stringsValid (stringsValid_parse (parse_encode h))]

/-- The UID message of the signature key `[1]` under `Lib.toy`, whose one repository is
`repo`. -/
def Message.toy : Message :=
  ⟨Base64.encode (Lib.toy.sha512 [1]), [1], Base64.encode [1], [lit "repo"]⟩

theorem keyInit_toy_ok (msgcount : UInt64) (mixaddress nymaddress : Bytes) :
    ∃ ki pubKeyHash privateKey rest, Message.toy.keyInit Lib.toy msgcount 1 0 false (lit "repo")
      mixaddress nymaddress (List.replicate 48 0) 0 = .ok ((ki, pubKeyHash, privateKey), rest) :=
  keyInit_ok Lib.toy Message.toy msgcount 1 0 false (lit "repo") mixaddress nymaddress _ 0 (by decide)
    (by decide) (by decide) (Base64.decode_encode _) (by simp [Lib.toy]) rfl (by simp)

theorem keyInit_accepted_toy :
    (∃ r, Message.toy.keyInit Lib.toy 0 1 0 false (lit "repo") [0xFF] [] (List.replicate 48 0) 0 =
      .ok r) ∧
    RoundTrip Lib.toy Message.toy 0 1 0 false (lit "repo") [0xFF] [] (List.replicate 48 0) 0 :=
  ⟨let ⟨_, _, _, _, h⟩ := keyInit_toy_ok 0 [0xFF] []; ⟨_, h⟩,
    keyInit_accepted Lib.toy Message.toy 0 1 0 false (lit "repo") [0xFF] [] _ 0 rfl rfl
      (.inr Lib.toy_writesNormalForm) (Utf8.valid_of_ascii (by decide))⟩

/-! ## `Check` -/

/-- A repository URI `"\xff"` breaks the round trip for every library: the message reads
back from its JSON with `REPOURI` U+FFFD, and `Verify` rejects it for the repository list
`["\xff"]`. -/
theorem roundTrip_invalid_repoURI (L : Lib) :
    ¬ RoundTrip L ⟨Base64.encode (L.sha512 (L.ed25519.publicKey [])), [],
        Base64.encode (L.ed25519.publicKey []), [[0xFF]]⟩ 0 1 0 false [0xFF] [] []
      (List.replicate 48 0) 0 := by
  intro h
  obtain ⟨ki, pkh, priv, rest, hok⟩ := keyInit_ok L ⟨Base64.encode (L.sha512 (L.ed25519.publicKey [])), [],
      Base64.encode (L.ed25519.publicKey []), [[0xFF]]⟩ 0 1 0 false [0xFF] [] []
    (List.replicate 48 0) 0 (by decide) (by decide) (by decide) (Base64.decode_encode _)
    (by rw [L.length_sha512]; omega) rfl (by simp)
  obtain ⟨-, ki', hread, -, hverify⟩ := h ki pkh priv rest hok
  rw [newJSONKeyInit_json, Outcome.ok.injEq] at hread
  subst hread
  obtain ⟨-, -, -, -, _, _, _, -, -, hc, -⟩ := keyInit_eq_ok hok
  have := hverify [[0xFF]] 0 (by decide) (by decide)
  simp [KeyInit.verify, KeyInit.recode, Contents.recode, hc, Utf8.recode_ff, containsString] at this

/-- **A repository URI that is not valid UTF-8 breaks the round trip**, for every library:
no library makes every run of `KeyInit` round-trip for every message that keeps the uid
package's invariants. -/
theorem keyInit_invalid_repoURI_rejected :
    ¬ ∃ L : Lib, ∀ (msg : Message) (msgcount notafter notbefore : UInt64) (fallback : Bool)
        (repoURI mixaddress nymaddress rand : Bytes) (now : UInt64),
        msg.sigPubKey = Base64.encode (L.ed25519.publicKey msg.sigKey) →
        msg.sigKeyHash = Base64.encode (L.sha512 (L.ed25519.publicKey msg.sigKey)) →
        msg.repoURIs[0]? = some repoURI →
        RoundTrip L msg msgcount notafter notbefore fallback repoURI mixaddress nymaddress rand now :=
  fun ⟨L, hall⟩ => roundTrip_invalid_repoURI L (hall _ 0 1 0 false [0xFF] [] [] _ 0 rfl rfl rfl)

end Mute.Uid
