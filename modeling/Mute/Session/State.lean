import Mute.Uid.KeyEntry
import Mute.Encoding.Base64

/-!
# Session state (msg/session)

`session.State`, the ratchet state of one ordered pair of parties that a key store keeps
between messages, and the store keys the session package derives from identities:
`CalcStateKey` over two 32-byte identity keys and `CalcKey` over four hashes. SHA-512 is
a parameter (`sha512`).
-/

namespace Mute.Session

open Uid

/-- `session.State`: the current session state between two communicating parties. -/
structure State where
  /-- Messages sent in sessions before this `senderSessionPub` was used. -/
  senderSessionCount : UInt64
  /-- Messages sent with this `senderSessionPub`. -/
  senderMessageCount : UInt64
  /-- The highest `senderMessageCount` seen from the recipient. -/
  maxRecipientCount : UInt64
  /-- The recipient's KeyInit or session key. -/
  recipientTemp : KeyEntry
  /-- The sender's public session key. -/
  senderSessionPub : KeyEntry
  /-- A new `senderSessionPub` to refresh the session (a nil pointer is `none`). -/
  nextSenderSessionPub : Option KeyEntry
  /-- The other party's `nextSenderSessionPub` as far as it is known. -/
  nextRecipientSessionPubSeen : Option KeyEntry
  /-- The recipient's current nym address. -/
  nymAddress : Bytes
  /-- Whether the session was started with a KeyInit message. -/
  keyInitSession : Bool
  deriving DecidableEq, Repr

variable (sha512 : Bytes → Bytes)

/-- `CalcStateKey(senderIdentityPub, recipientIdentityPub)`. -/
def calcStateKey (senderIdentityPub recipientIdentityPub : Bytes) : Bytes :=
  Base64.encode (sha512 (senderIdentityPub ++ recipientIdentityPub))

/-- `CalcKey(senderIdentityHash, recipientIdentityHash, senderSessionHash,
recipientSessionHash)`. -/
def calcKey (senderIdentityHash recipientIdentityHash senderSessionHash
    recipientSessionHash : Bytes) : Bytes :=
  Base64.encode (sha512 (senderIdentityHash ++ recipientIdentityHash ++
    senderSessionHash ++ recipientSessionHash))

end Mute.Session
