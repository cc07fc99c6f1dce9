import Mute.Go

/-!
# Key entries (uid.KeyEntry)

`uid.KeyEntry` is the key material the store hands out and the session anchor of a
KeyInit message carries. Its source, uid/keyentry.go, is not among the sources; the
type is modelled from the spec (§2, §6): a key entry names the ciphersuite and the
function (capability tag) it may be used for, and carries a content hash and the public
key, all as text; a private key may be set on it, which is never serialized. The spec's
validity window is read by no code modelled here and is left out.
-/

namespace Mute.Uid

/-- Modelled from the spec: `uid.KeyEntry` (keyentry.go is not among the sources). -/
structure KeyEntry where
  /-- `CIPHERSUITE`: the ciphersuite the key may be used in. -/
  ciphersuite : Bytes
  /-- `FUNCTION`: the capability tag, `ECDHE25519` for a key agreement key. -/
  function : Bytes
  /-- `HASH`: the content hash by which stores index the entry. -/
  hash : Bytes
  /-- `PUBKEY`: the base64 public key. -/
  pubkey : Bytes
  /-- The private key, when one is set (`setPrivateKey`); not serialized. -/
  privateKey : Option Bytes
  deriving DecidableEq, Repr

/-- The zero `KeyEntry`. -/
def KeyEntry.zero : KeyEntry := ⟨[], [], [], [], none⟩

/-- Modelled from the spec: `ke.PrivateKey32()`, the private key of an entry that has
one; on an entry without one, slicing the nil key panics. -/
def KeyEntry.privateKey32 {ε : Type} (ke : KeyEntry) : Outcome ε Bytes :=
  match ke.privateKey with
  | some k => .ok k
  | none => .panic nilDereference

theorem KeyEntry.privateKey32_eq_ok {ε : Type} {ke : KeyEntry} {k : Bytes} :
    (ke.privateKey32 : Outcome ε Bytes) = .ok k ↔ ke.privateKey = some k := by
  unfold KeyEntry.privateKey32; split <;> simp_all

/-- The entry as it is serialized, without its private key. -/
def KeyEntry.public (ke : KeyEntry) : KeyEntry := { ke with privateKey := none }

end Mute.Uid
