import Mute.Uid.KeyEntry
import Mute.Encoding.Base64
import Mute.Encoding.JsonRoundTrip
import Mute.Cipher.Aes256

/-!
# KeyInit messages (uid/keyinit.go)

A KeyInit message publishes a short-term key agreement key, encrypted and signed with
the long-term signature key of a UID message. The producer (`Message.sessionAnchor`,
`Message.keyInit`) encrypts a session anchor under the first 32 bytes of the signature
key's hash, records the hashes and signs the contents. The consumer
(`KeyInit.sessionAnchor`, `KeyInit.keyEntryECDHE25519`, `KeyInit.verify`) recomputes
what it can from the signature public key and checks the rest.

- `SessionAnchor`, `Contents`, `KeyInit`: the three structs, with the JSON value
  `marshalSorted` writes for each (`toValue`, keys in sorted order) and their decoding
  by `json.Unmarshal` (`decode`).
- `Lib`: what keyinit.go calls from code that is not among the sources (SHA-512, the
  AES block cipher, `marshalSorted`, Ed25519, and the key entry methods of
  keyentry.go), each with the property the rest of the development assumes of it.
- `Message`: the parts of a UID message (uid.go, not among the sources) that
  keyinit.go reads.
- `Error`: the errors keyinit.go returns.
- `KeyInit.sign`, `KeyInit.verifySrvSig`: a key server's signature over a message's JSON
  and its check; `KeyInit.check`: the version check; `SessionAnchor.privateKey`: the
  private key of an anchor's first key entry.

Time is a parameter (`now`, `uint64(times.Now())`), and the randomness source is the
list of bytes it yields; each function that reads it returns what is left.
-/

namespace Mute.Uid

open Json

/-! ## The structs and their JSON -/

/-- `SessionAnchor`: the keys for perfect forward secrecy. -/
structure SessionAnchor where
  /-- `MIXADDRESS`: the mix to use as the last hop. -/
  mixaddress : Bytes
  /-- `NYMADDRESS`. -/
  nymaddress : Bytes
  /-- `PFKEYS`; `none` is the nil slice. -/
  pfkeys : Option (List KeyEntry)

/-- `contents` of a KeyInit message. -/
structure Contents where
  version : Bytes
  msgcount : UInt64
  notafter : UInt64
  notbefore : UInt64
  fallback : Bool
  sigkeyhash : Bytes
  repouri : Bytes
  sessionanchor : Bytes
  sessionanchorhash : Bytes

/-- `KeyInit`: the contents and their signature. -/
structure KeyInit where
  contents : Contents
  signature : Bytes

/-- The zero `SessionAnchor`. -/
def SessionAnchor.zero : SessionAnchor := ⟨[], [], none⟩

/-- The zero `contents`. -/
def Contents.zero : Contents := ⟨[], 0, 0, 0, false, [], [], [], []⟩

/-- The zero `KeyInit`. -/
def KeyInit.zero : KeyInit := ⟨Contents.zero, []⟩

/-- The JSON object of a key entry: its four exported fields (the private key is
unexported and not written). -/
def KeyEntry.toValue (ke : KeyEntry) : Value :=
  .object [(lit "CIPHERSUITE", .string ke.ciphersuite), (lit "FUNCTION", .string ke.function),
    (lit "HASH", .string ke.hash), (lit "PUBKEY", .string ke.pubkey)]

/-- The key entries of a slice as JSON array elements. -/
def keyEntryValues : List KeyEntry → List Value
  | [] => []
  | ke :: kes => ke.toValue :: keyEntryValues kes

/-- The JSON object of a session anchor, keys sorted. -/
def SessionAnchor.toValue (sa : SessionAnchor) : Value :=
  .object [(lit "MIXADDRESS", .string sa.mixaddress), (lit "NYMADDRESS", .string sa.nymaddress),
    (lit "PFKEYS", match sa.pfkeys with
      | none => .null
      | some kes => .array (keyEntryValues kes))]

/-- The JSON object of KeyInit contents, keys sorted. -/
def Contents.toValue (c : Contents) : Value :=
  .object [(lit "FALLBACK", .bool c.fallback), (lit "MSGCOUNT", .number (decimal c.msgcount.toNat)),
    (lit "NOTAFTER", .number (decimal c.notafter.toNat)),
    (lit "NOTBEFORE", .number (decimal c.notbefore.toNat)), (lit "REPOURI", .string c.repouri),
    (lit "SESSIONANCHOR", .string c.sessionanchor),
    (lit "SESSIONANCHORHASH", .string c.sessionanchorhash),
    (lit "SIGKEYHASH", .string c.sigkeyhash), (lit "VERSION", .string c.version)]

/-- The JSON object of a KeyInit message, keys sorted. -/
def KeyInit.toValue (ki : KeyInit) : Value :=
  .object [(lit "Contents", ki.contents.toValue), (lit "SIGNATURE", .string ki.signature)]

/-- The fields of `KeyEntry` in declaration order. -/
def KeyEntry.fieldNames : List Bytes := [lit "CIPHERSUITE", lit "FUNCTION", lit "HASH", lit "PUBKEY"]

/-- A JSON value stored into field `i` of a key entry. -/
def KeyEntry.setField (ke : KeyEntry) : Nat → Value → Except Json.Error KeyEntry
  | 0, v => return { ke with ciphersuite := ← decodeString ke.ciphersuite v }
  | 1, v => return { ke with function := ← decodeString ke.function v }
  | 2, v => return { ke with hash := ← decodeString ke.hash v }
  | 3, v => return { ke with pubkey := ← decodeString ke.pubkey v }
  | _, _ => .ok ke

/-- A JSON value stored into a key entry. -/
def KeyEntry.decode : KeyEntry → Value → Except Json.Error KeyEntry :=
  decodeStruct KeyEntry.fieldNames KeyEntry.setField

/-- The fields of `SessionAnchor` in declaration order. -/
def SessionAnchor.fieldNames : List Bytes := [lit "MIXADDRESS", lit "NYMADDRESS", lit "PFKEYS"]

/-- A JSON value stored into field `i` of a session anchor. -/
def SessionAnchor.setField (sa : SessionAnchor) : Nat → Value → Except Json.Error SessionAnchor
  | 0, v => return { sa with mixaddress := ← decodeString sa.mixaddress v }
  | 1, v => return { sa with nymaddress := ← decodeString sa.nymaddress v }
  | 2, v => return { sa with pfkeys := ← decodeSlice KeyEntry.zero KeyEntry.decode sa.pfkeys v }
  | _, _ => .ok sa

/-- A JSON value stored into a session anchor. -/
def SessionAnchor.decode : SessionAnchor → Value → Except Json.Error SessionAnchor :=
  decodeStruct SessionAnchor.fieldNames SessionAnchor.setField

/-- The fields of `contents` in declaration order. -/
def Contents.fieldNames : List Bytes :=
  [lit "VERSION", lit "MSGCOUNT", lit "NOTAFTER", lit "NOTBEFORE", lit "FALLBACK", lit "SIGKEYHASH",
    lit "REPOURI", lit "SESSIONANCHOR", lit "SESSIONANCHORHASH"]

/-- A JSON value stored into field `i` of KeyInit contents. -/
def Contents.setField (c : Contents) : Nat → Value → Except Json.Error Contents
  | 0, v => return { c with version := ← decodeString c.version v }
  | 1, v => return { c with msgcount := ← decodeUint64 c.msgcount v }
  | 2, v => return { c with notafter := ← decodeUint64 c.notafter v }
  | 3, v => return { c with notbefore := ← decodeUint64 c.notbefore v }
  | 4, v => return { c with fallback := ← decodeBool c.fallback v }
  | 5, v => return { c with sigkeyhash := ← decodeString c.sigkeyhash v }
  | 6, v => return { c with repouri := ← decodeString c.repouri v }
  | 7, v => return { c with sessionanchor := ← decodeString c.sessionanchor v }
  | 8, v => return { c with sessionanchorhash := ← decodeString c.sessionanchorhash v }
  | _, _ => .ok c

/-- The fields of `KeyInit` in declaration order. -/
def KeyInit.fieldNames : List Bytes := [lit "Contents", lit "SIGNATURE"]

/-- A JSON value stored into field `i` of a KeyInit message. -/
def KeyInit.setField (ki : KeyInit) : Nat → Value → Except Json.Error KeyInit
  | 0, v => return { ki with contents := ← decodeStruct Contents.fieldNames Contents.setField ki.contents v }
  | 1, v => return { ki with signature := ← decodeString ki.signature v }
  | _, _ => .ok ki

/-- A JSON value stored into a KeyInit message. -/
def KeyInit.decode : KeyInit → Value → Except Json.Error KeyInit :=
  decodeStruct KeyInit.fieldNames KeyInit.setField

/-! ## What keyinit.go calls -/

/-- Ed25519 as `cipher.Ed25519Key` offers it (cipher/ed25519.go is not among the
sources): the public half of a private key, `Sign`, and `verify pubKey message sig` for
`SetPublicKey(pubKey)` followed by `Verify(message, sig)`. keyinit.go discards the error
`SetPublicKey` returns; what `Verify` does on a key whose `SetPublicKey` failed is not in
the sources, and `verify` assumes it answers with a boolean, as it does under every other
key. A signature verifies under the public half of the key that made it. -/
structure Ed25519 where
  publicKey : Bytes → Bytes
  sign : (privateKey message : Bytes) → Bytes
  verify : (publicKey message signature : Bytes) → Bool
  verify_sign : ∀ sk m, verify (publicKey sk) m (sign sk m) = true

/-- What keyinit.go calls from code that is not among the sources, with what the
development assumes of each. -/
structure Lib where
  /-- `cipher.SHA512`, whose hashes are 64 bytes long. -/
  sha512 : Bytes → Bytes
  length_sha512 : ∀ b, (sha512 b).length = 64
  /-- The AES block cipher behind cipher/aes256. -/
  aes : BlockCipher
  /-- `marshalSorted` (uid.go, not among the sources): the JSON text of a struct with its
  keys sorted. What is assumed of it is only what `json.Unmarshal` reads back: the value
  with each string and key recoded (`Value.recode`) and each unsigned integer exact, for a
  value whose keys are already sorted. Whether it writes a value and its recoding as one
  text is left open (`Lib.WritesNormalForm`): one that marshals, reads the text back and
  marshals again does; one that writes `encoding/json`'s text as it is does not, since that
  writes a byte that starts no UTF-8 sequence as the escape of U+FFFD and U+FFFD itself as
  its three bytes. -/
  marshalSorted : Value → Bytes
  parse_marshalSorted : ∀ v, v.WellFormed → v.KeysSorted → parse (marshalSorted v) = some v.recode
  ed25519 : Ed25519
  /-- `ke.InitDHKey(rand)` on a zero entry (keyentry.go): a new ECDHE25519 key from the
  first 32 bytes of `rand`, or the error of a source that runs dry. -/
  initDHKey : Bytes → Except Bytes (KeyEntry × Bytes)
  initDHKey_ok : ∀ rand, 32 ≤ rand.length → ∃ ke, initDHKey rand = .ok (ke, rand.drop 32)
  /-- `ke.Verify()` (keyentry.go): an error, or `none`. -/
  verifyKeyEntry : KeyEntry → Option Bytes
  /-- A new entry is an ECDHE25519 key with a private key, its fields are valid UTF-8
  (base64 text), and it verifies once its private key is dropped, as JSON drops it. -/
  initDHKey_spec : ∀ rand ke rest, initDHKey rand = .ok (ke, rest) →
    ke.function = lit "ECDHE25519" ∧ ke.privateKey.isSome ∧
    Utf8.valid ke.ciphersuite ∧ Utf8.valid ke.function ∧ Utf8.valid ke.hash ∧
    Utf8.valid ke.pubkey ∧ verifyKeyEntry ke.public = none
  /-- `ProtocolVersion` (uid.go), valid UTF-8. -/
  protocolVersion : Bytes
  valid_protocolVersion : Utf8.valid protocolVersion

/-- `marshalSorted` writes the same text for a value and for the value `json.Unmarshal`
reads back from that text, as one does that marshals, reads the text back and marshals
again. -/
def Lib.WritesNormalForm (L : Lib) : Prop :=
  ∀ v : Value, v.WellFormed → L.marshalSorted v.recode = L.marshalSorted v

/-- The parts of a UID message (`uid.Message`, uid.go) that keyinit.go reads. -/
structure Message where
  /-- `UIDContent.SIGKEY.HASH`. -/
  sigKeyHash : Bytes
  /-- The private key of `UIDContent.SIGKEY` (its `ed25519Key`). -/
  sigKey : Bytes
  /-- `SigPubKey()`, the base64 public key of `UIDContent.SIGKEY`. -/
  sigPubKey : Bytes
  /-- `UIDContent.REPOURIS`. -/
  repoURIs : List Bytes

/-- The errors keyinit.go returns: the uid package's error values (uid/errors.go is not
among the sources), the errors of base64 decoding (`CorruptInputError`, its offset not
modelled), of JSON and of the key entry methods, and the one error text keyinit.go
writes itself. -/
inductive Error where
  | keyEntryNotFound
  | wrongSigKeyHash
  | sessionAnchor
  | repoURI
  | invalidTimes
  | expired
  | future
  | invalidKeyInitSig
  | base64
  | json (e : Json.Error)
  | keyEntry (e : Bytes)
  | text (e : Bytes)
  deriving DecidableEq, Repr

/-- `util.ContainsString(sa, s)` (util/util.go). -/
def containsString (sa : List Bytes) (s : Bytes) : Bool := sa.any (· == s)

/-- `base64.Decode`. -/
def decode64 (s : Bytes) : Outcome Error Bytes :=
  match Base64.decode s with
  | some b => .ok b
  | none => .err .base64

theorem decode64_eq_ok {s b : Bytes} : decode64 s = .ok b ↔ Base64.decode s = some b := by
  unfold decode64; split <;> simp_all

/-- `MaxNotAfter`, ninety days in seconds. -/
def maxNotAfter : UInt64 := 90 * 24 * 60 * 60

/-- The AES key keyinit.go cuts from a SHA-512 hash, its first 32 bytes, is never cut
short. -/
theorem sliceTo_sha512 (L : Lib) (b : Bytes) :
    (sliceTo (L.sha512 b) 32 : Outcome Error Bytes) = .ok ((L.sha512 b).take 32) :=
  sliceTo_of_le (by rw [L.length_sha512]; decide)

theorem length_take_sha512 (L : Lib) (b : Bytes) : ((L.sha512 b).take 32).length = 32 := by
  rw [List.length_take, L.length_sha512]; rfl

/-! ## The consumer -/

section Consumer

variable (L : Lib)

/-- `sa.json()`. -/
def SessionAnchor.json (sa : SessionAnchor) : Bytes := L.marshalSorted sa.toValue

/-- `c.json()`. -/
def Contents.json (c : Contents) : Bytes := L.marshalSorted c.toValue

/-- `ki.JSON()`. -/
def KeyInit.json (ki : KeyInit) : Bytes := L.marshalSorted ki.toValue

/-- `NewJSONKeyInit(keyInit)`. -/
def newJSONKeyInit (keyInit : Bytes) : Outcome Error KeyInit :=
  match unmarshal (KeyInit.decode KeyInit.zero) keyInit with
  | .ok ki => .ok ki
  | .error e => .err (.json e)

/-- `json.Unmarshal(txt, &sa)` into a new session anchor. -/
def unmarshalSessionAnchor (txt : Bytes) : Outcome Error SessionAnchor :=
  match unmarshal (SessionAnchor.decode SessionAnchor.zero) txt with
  | .ok sa => .ok sa
  | .error e => .err (.json e)

/-- `sa.KeyEntry(function)`: the first key entry of the anchor for `function`. -/
def SessionAnchor.keyEntry (sa : SessionAnchor) (function : Bytes) : Outcome Error KeyEntry :=
  match (sa.pfkeys.getD []).find? (·.function == function) with
  | some ke => .ok ke
  | none => .err .keyEntryNotFound

/-- `sa.PrivateKey()`: the private key of the first key entry, in base64. `PFKEYS[0]`
panics on a nil or empty slice, and `PrivateKey32` on an entry without a private key. -/
def SessionAnchor.privateKey (sa : SessionAnchor) : Outcome Error Bytes := do
  let ke ← index (sa.pfkeys.getD []) 0
  let k ← ke.privateKey32
  pure (Base64.encode k)

/-- `ki.SessionAnchor(sigPubKey)`: the session anchor decrypted with the first 32 bytes
of the hash of the signature public key, once `SIGKEYHASH` is found to be the hash of
that hash, and checked against `SESSIONANCHORHASH`. -/
def KeyInit.sessionAnchor (ki : KeyInit) (sigPubKey : Bytes) : Outcome Error SessionAnchor := do
  let pubKey ← decode64 sigPubKey
  let keyHash := L.sha512 pubKey
  if ki.contents.sigkeyhash ≠ Base64.encode (L.sha512 keyHash) then .err .wrongSigKeyHash
  else
    let enc ← decode64 ki.contents.sessionanchor
    let key ← sliceTo keyHash 32
    let txt ← Aes256.ctrDecrypt L.aes key enc
    let sa ← unmarshalSessionAnchor txt
    if ki.contents.sessionanchorhash ≠ Base64.encode (L.sha512 (sa.json L)) then .err .sessionAnchor
    else .ok sa

/-- `ki.KeyEntryECDHE25519(sigPubKey)`. -/
def KeyInit.keyEntryECDHE25519 (ki : KeyInit) (sigPubKey : Bytes) : Outcome Error KeyEntry := do
  let sa ← ki.sessionAnchor L sigPubKey
  sa.keyEntry (lit "ECDHE25519")

/-- `ki.Verify(keyInitRepositoryURIs, sigPubKey)` at time `now`. The self-signature is
checked with `L.ed25519.verify`, which stands for `SetPublicKey` (its error discarded) and
`Verify`. -/
def KeyInit.verify (ki : KeyInit) (uris : List Bytes) (sigPubKey : Bytes) (now : UInt64) :
    Outcome Error Unit := do
  if !containsString uris ki.contents.repouri then .err .repoURI
  else
    let sa ← ki.sessionAnchor L sigPubKey
    let ke ← sa.keyEntry (lit "ECDHE25519")
    match L.verifyKeyEntry ke with
    | some e => .err (.keyEntry e)
    | none =>
      if ki.contents.notbefore ≥ ki.contents.notafter then .err .invalidTimes
      else if ki.contents.notafter < now then .err .expired
      else
        let sig ← decode64 ki.signature
        let pubKey ← decode64 sigPubKey
        if !L.ed25519.verify pubKey (ki.contents.json L) sig then .err .invalidKeyInitSig
        else .ok ()

end Consumer

/-! ## The producer -/

section Producer

variable (L : Lib)

/-- `msg.sessionAnchor(key, mixaddress, nymaddress, rand)`: the encrypted session anchor,
its hash, the new key entry's hash and private key, and what is left of `rand`. -/
def Message.sessionAnchor (key mixaddress nymaddress rand : Bytes) :
    Outcome Error ((Bytes × Bytes × Bytes × Bytes) × Bytes) :=
  match L.initDHKey rand with
  | .error e => .err (.keyEntry e)
  | .ok (ke, rand) => do
    let sa : SessionAnchor := ⟨mixaddress, nymaddress, some [ke]⟩
    let jsn := sa.json L
    let hash := L.sha512 jsn
    let k ← sliceTo key 32
    let (c, rand) ← Aes256.ctrEncrypt L.aes k jsn rand
    let priv ← ke.privateKey32
    pure ((Base64.encode c, Base64.encode hash, ke.hash, Base64.encode priv), rand)

/-- `msg.KeyInit(msgcount, notafter, notbefore, fallback, repoURI, mixaddress, nymaddress,
rand)` at time `now`: the message, the key entry's hash and private key, and what is
left of `rand`. -/
def Message.keyInit (msg : Message) (msgcount notafter notbefore : UInt64) (fallback : Bool)
    (repoURI mixaddress nymaddress rand : Bytes) (now : UInt64) :
    Outcome Error ((KeyInit × Bytes × Bytes) × Bytes) :=
  if notbefore ≥ notafter then .err .invalidTimes
  else if notafter < now then .err .expired
  else if notafter > now + maxNotAfter then .err .future
  else do
    let keyHash ← decode64 msg.sigKeyHash
    let uri ← index msg.repoURIs 0
    if repoURI ≠ uri then .err (.text (lit "uri: repoURI differs from msg.UIDContent.REPOURIS[0]"))
    else
      let ((sa, sah, pubKeyHash, privateKey), rand) ←
        Message.sessionAnchor L keyHash mixaddress nymaddress rand
      let contents : Contents := ⟨L.protocolVersion, msgcount, notafter, notbefore, fallback,
        Base64.encode (L.sha512 keyHash), repoURI, sa, sah⟩
      let sig := L.ed25519.sign msg.sigKey (contents.json L)
      pure ((⟨contents, Base64.encode sig⟩, pubKeyHash, privateKey), rand)

end Producer

/-! ## The key server's signature and `Check` -/

/-- The errors `VerifySrvSig` returns: that of `base64.Decode`, and `ErrInvalidSrvSig`, an
error value of the uid package that no other function of keyinit.go returns. -/
inductive SrvSigError where
  | base64
  | invalidSrvSig
  deriving DecidableEq, Repr

section Server

variable (L : Lib)

/-- `ki.Sign(sigKey)`: the signature of `ki.JSON()` under `sigKey`, in base64. -/
def KeyInit.sign (ki : KeyInit) (sigKey : Bytes) : Bytes :=
  Base64.encode (L.ed25519.sign sigKey (ki.json L))

/-- `ki.VerifySrvSig(signature, srvPubKey)`: the base64 `signature` verifies as a signature
of `ki.JSON()` under the base64 public key `srvPubKey` (`SetPublicKey`'s error discarded,
as in `Verify`). -/
def KeyInit.verifySrvSig (ki : KeyInit) (signature srvPubKey : Bytes) : Outcome SrvSigError Unit :=
  match Base64.decode signature with
  | none => .err .base64
  | some sig =>
    match Base64.decode srvPubKey with
    | none => .err .base64
    | some pubKey => if !L.ed25519.verify pubKey (ki.json L) sig then .err .invalidSrvSig else .ok ()

end Server

/-- `ki.checkV1_0()`. -/
def KeyInit.checkV1_0 (ki : KeyInit) : Outcome Error Unit :=
  if ki.contents.msgcount ≠ 0 then .err (.text (lit "uid: ki.Contents.MSGCOUNT must be 0"))
  else .ok ()

/-- `ki.Check()`: only version 1.0 is known. -/
def KeyInit.check (ki : KeyInit) : Outcome Error Unit :=
  if ki.contents.version ≠ lit "1.0" then
    .err (.text (lit "uid: unknown ki.Contents.VERSION: " ++ ki.contents.version))
  else ki.checkV1_0

/-- `Check` accepts exactly version "1.0" with `MSGCOUNT` 0. -/
theorem KeyInit.check_eq_ok_iff (ki : KeyInit) :
    ki.check = .ok () ↔ ki.contents.version = lit "1.0" ∧ ki.contents.msgcount = 0 := by
  unfold KeyInit.check KeyInit.checkV1_0
  split_ifs <;> simp_all

end Mute.Uid
