import Mute.Session.State

/-!
# The in-memory key store (msg/session/memstore)

`memstore.MemStore`, the reference implementation of the key store contract (spec §3,
§6), method by method. Its Go maps are total functions to `Option`; a method is a
function from the store to the store after it and the method's outcome.

A session's key lists are Go slices, and `StoreSession` keeps the slices it is given, not
copies: a `MemSession` holds two `Slice`s, whose strings are in the program's `Heap`. The
heap is not a field of the Go struct but Go's memory, which the store shares with its
callers; the model carries it in `MemStore`, and `new heap` is `New()` in a program whose
backing arrays hold `heap`. `DelMessageKey` writes the heap through a slice, so every
slice that shares the place sees the deletion.

A pointer the source may be handed nil is an `Option`: `SetSessionState`,
`AddPrivateKeyEntry` and `GetPublicKeyEntry` read through theirs and panic on nil;
`AddPublicKeyEntry` stores a nil entry as it is.

Sessions and session states are indexed by strings joined with `@`
(`sessionStateKey`, `sessionKey`). `identity.IsMapped` is not among the sources and is a
parameter (`isMapped`, its error or `none`).

- `step`: one call of any method, from the operation `Op` naming it and its arguments;
  `run`: a sequence of calls.
- `storeSession_cases`, `delMessageKey_cases`: everything the two writing methods can do.
- `step_err_eq`: a call that returns an error or panics leaves the store as it was.
- `sessions_step`, `heap_step`: only `StoreSession` writes a session, and only
  `DelMessageKey` writes the heap, the empty string into a place of a slice the store
  keeps.
-/

namespace Mute.Memstore

open Uid Session

/-- A `[64]byte`, as the store returns message keys and root key hashes. -/
def Key64 := { k : Bytes // k.length = 64 }

instance : DecidableEq Key64 := inferInstanceAs (DecidableEq { k : Bytes // k.length = 64 })

/-- `memSession`: one session's root key hash, chain key, and the slices of its base64
message keys; a used key is the empty string. -/
structure MemSession where
  rootKeyHash : Bytes
  chainKey : Bytes
  send : Slice
  recv : Slice
  deriving DecidableEq, Repr

/-- `s.send` for the sender, `s.recv` for the recipient. -/
def MemSession.side (s : MemSession) (sender : Bool) : Slice := if sender then s.send else s.recv

@[simp] theorem MemSession.side_true (s : MemSession) : s.side true = s.send := rfl

@[simp] theorem MemSession.side_false (s : MemSession) : s.side false = s.recv := rfl

/-- `MemStore`, with the memory its slices point into. -/
structure MemStore where
  privateKeyEntryMap : Bytes → Option KeyEntry
  /-- A stored entry may be nil. -/
  publicKeyEntryMap : Bytes → Option (Option KeyEntry)
  sessionStates : Bytes → Option State
  sessions : Bytes → Option MemSession
  senderSessionPubHash : Bytes
  /-- The backing arrays of the slices the store keeps, which its callers share. -/
  heap : Heap

/-- The errors the store's methods return. -/
inductive Error where
  /-- The error `identity.IsMapped` returned, passed on by `log.Error`. -/
  | identity (e : Bytes)
  /-- `session.ErrMessageKeyUsed`. -/
  | messageKeyUsed
  /-- `session.ErrNoKeyInit`. -/
  | noKeyInit
  /-- An error made in memstore.go, by its text. -/
  | text (t : Bytes)
  deriving DecidableEq, Repr

/-- `log.Errorf("memstore: no session found for %s and %s", myID, contactID)`. -/
def noSessionError (myID contactID : Bytes) : Error :=
  .text (lit "memstore: no session found for " ++ myID ++ lit " and " ++ contactID)

/-- `log.Error("memstore: message index out of bounds")`. -/
def indexOutOfBoundsError : Error := .text (lit "memstore: message index out of bounds")

/-- `log.Error("memstore: len(send) != len(recv)")`. -/
def lenMismatchError : Error := .text (lit "memstore: len(send) != len(recv)")

/-- `log.Errorf("memstore: cannot decode %s key for %s and %s: ", ...)`. -/
def cannotDecodeError (party myID contactID : Bytes) : Error :=
  .text (lit "memstore: cannot decode " ++ party ++ lit " key for " ++ myID ++ lit " and " ++
    contactID ++ lit ": ")

/-- `log.Errorf("memstore: %s key for %s and %s has wrong length", ...)`. -/
def wrongLengthError (party myID contactID : Bytes) : Error :=
  .text (lit "memstore: " ++ party ++ lit " key for " ++ myID ++ lit " and " ++ contactID ++
    lit " has wrong length")

/-- `fmt.Errorf("memstore: could not find key entry %s", pubKeyHash)`. -/
def noKeyEntryError (pubKeyHash : Bytes) : Error :=
  .text (lit "memstore: could not find key entry " ++ pubKeyHash)

/-- `myID+"@"+contactID`, the index of a session state. -/
def sessionStateKey (myID contactID : Bytes) : Bytes := myID ++ lit "@" ++ contactID

/-- `myID+"@"+contactID+"@"+senderSessionPubHash`, the index of a session. -/
def sessionKey (myID contactID senderSessionPubHash : Bytes) : Bytes :=
  myID ++ lit "@" ++ contactID ++ lit "@" ++ senderSessionPubHash

/-- `copy(key[:], k) != 64` for a `[64]byte` key: `copy` copies `min(64, len(k))` bytes,
so fewer than 64 bytes is the error `e`, and more are cut to the first 64. -/
def copyKey64 (k : Bytes) (e : Error) : Outcome Error Key64 :=
  if h : 64 ≤ k.length then .ok ⟨k.take 64, by simp; omega⟩ else .err e

/-- The end of `GetMessageKey`: a used key is `ErrMessageKeyUsed`, any other is decoded
into a `[64]byte`; `party` names the list it came from. -/
def decodeMessageKey (key party myID contactID : Bytes) : Outcome Error Key64 :=
  if key = [] then .err .messageKeyUsed
  else match Base64.decode key with
    | none => .err (cannotDecodeError party myID contactID)
    | some k => copyKey64 k (wrongLengthError party myID contactID)

@[simp] theorem isPanic_copyKey64 (k : Bytes) (e : Error) : (copyKey64 k e).isPanic = false := by
  unfold copyKey64; split <;> rfl

@[simp] theorem isPanic_decodeMessageKey (key party myID contactID : Bytes) :
    (decodeMessageKey key party myID contactID).isPanic = false := by
  unfold decodeMessageKey; split
  · rfl
  · split <;> simp

namespace MemStore

variable (isMapped : Bytes → Option Bytes)

/-- `New()`, in a program whose backing arrays hold `heap`. -/
def new (heap : Heap) : MemStore :=
  ⟨fun _ => none, fun _ => none, fun _ => none, fun _ => none, [], heap⟩

/-- `AddPrivateKeyEntry(ke)`: the map is indexed by `ke.HASH`, which reads the entry, so a
nil entry panics. -/
def addPrivateKeyEntry (ms : MemStore) : Option KeyEntry → MemStore × Outcome Error Unit
  | none => (ms, .panic nilDereference)
  | some ke =>
    ({ ms with privateKeyEntryMap := Function.update ms.privateKeyEntryMap ke.hash (some ke) },
      .ok ())

/-- `AddPublicKeyEntry(identity, ke)`: the entry is stored as it is, nil or not. -/
def addPublicKeyEntry (ms : MemStore) (identity : Bytes) (ke : Option KeyEntry) : MemStore :=
  { ms with publicKeyEntryMap := Function.update ms.publicKeyEntryMap identity (some ke) }

/-- `GetSessionState(myID, contactID)`: the state, or nil. -/
def getSessionState (ms : MemStore) (myID contactID : Bytes) : Outcome Error (Option State) :=
  .ok (ms.sessionStates (sessionStateKey myID contactID))

/-- `SetSessionState(myID, contactID, sessionState)`. The debug log line reads
`sessionState.SenderSessionPub.HASH` first, so a nil state panics. -/
def setSessionState (ms : MemStore) (myID contactID : Bytes) :
    Option State → MemStore × Outcome Error Unit
  | none => (ms, .panic nilDereference)
  | some st =>
    ({ ms with sessionStates :=
        Function.update ms.sessionStates (sessionStateKey myID contactID) (some st) }, .ok ())

/-- `StoreSession(myID, contactID, senderSessionPubHash, rootKeyHash, chainKey, send,
recv)`: both identities must be mapped and the slices of one length; the session keeps
the slices themselves. -/
def storeSession (ms : MemStore) (myID contactID senderSessionPubHash rootKeyHash chainKey : Bytes)
    (send recv : Slice) : MemStore × Outcome Error Unit :=
  match isMapped myID, isMapped contactID with
  | some e, _ => (ms, .err (.identity e))
  | none, some e => (ms, .err (.identity e))
  | none, none =>
    if send.len ≠ recv.len then (ms, .err lenMismatchError)
    else
      ({ ms with
          sessions := Function.update ms.sessions (sessionKey myID contactID senderSessionPubHash)
            (some ⟨rootKeyHash, chainKey, send, recv⟩)
          senderSessionPubHash := senderSessionPubHash }, .ok ())

/-- `HasSession(myID, contactID, senderSessionPubHash)`. -/
def hasSession (ms : MemStore) (myID contactID senderSessionPubHash : Bytes) : Bool :=
  (ms.sessions (sessionKey myID contactID senderSessionPubHash)).isSome

/-- `GetPrivateKeyEntry(pubKeyHash)`. -/
def getPrivateKeyEntry (ms : MemStore) (pubKeyHash : Bytes) : Outcome Error KeyEntry :=
  match ms.privateKeyEntryMap pubKeyHash with
  | some ke => .ok ke
  | none => .err (noKeyEntryError pubKeyHash)

/-- `GetPublicKeyEntry(uidMsg)`, of the message whose `Identity()` is `identity`, or of a nil
message: `Identity()` (uid.go, not among the sources) reads the message, so a nil one
panics. The entry, which may be nil, and the nym address `"undefined"`. -/
def getPublicKeyEntry (ms : MemStore) : Option Bytes → Outcome Error (Option KeyEntry × Bytes)
  | none => .panic nilDereference
  | some identity =>
    match ms.publicKeyEntryMap identity with
    | some ke => .ok (ke, lit "undefined")
    | none => .err .noKeyInit

/-- The session a method names, or the error for a missing one. -/
def lookupSession (ms : MemStore) (myID contactID senderSessionPubHash : Bytes) :
    Outcome Error MemSession :=
  match ms.sessions (sessionKey myID contactID senderSessionPubHash) with
  | some s => .ok s
  | none => .err (noSessionError myID contactID)

theorem lookupSession_eq_ok {ms : MemStore} {myID contactID hsh : Bytes} {s : MemSession} :
    ms.lookupSession myID contactID hsh = .ok s ↔ ms.sessions (sessionKey myID contactID hsh) = some s := by
  unfold lookupSession; split <;> simp_all

@[simp] theorem isPanic_lookupSession (ms : MemStore) (myID contactID hsh : Bytes) :
    (ms.lookupSession myID contactID hsh).isPanic = false := by
  unfold lookupSession; split <;> rfl

/-- `NumMessageKeys(myID, contactID, senderSessionPubHash)`: `uint64(len(s.send))`. -/
def numMessageKeys (ms : MemStore) (myID contactID senderSessionPubHash : Bytes) :
    Outcome Error UInt64 := do
  let s ← lookupSession ms myID contactID senderSessionPubHash
  pure (UInt64.ofNat s.send.len)

/-- `GetMessageKey(myID, contactID, senderSessionPubHash, sender, msgIndex)`. The bound
is checked against `send`, also for a recipient key; `uint64(len(s.send))` is
`len(s.send)`, which Go keeps below `2^63`. -/
def getMessageKey (ms : MemStore) (myID contactID senderSessionPubHash : Bytes) (sender : Bool)
    (msgIndex : UInt64) : Outcome Error Key64 := do
  let s ← lookupSession ms myID contactID senderSessionPubHash
  if s.send.len ≤ msgIndex.toNat then .err indexOutOfBoundsError
  else do
    let key ← (s.side sender).get ms.heap msgIndex.toNat
    decodeMessageKey key (if sender then lit "sender" else lit "recipient") myID contactID

/-- `GetRootKeyHash(myID, contactID, senderSessionPubHash)`. -/
def getRootKeyHash (ms : MemStore) (myID contactID senderSessionPubHash : Bytes) :
    Outcome Error Key64 := do
  let s ← lookupSession ms myID contactID senderSessionPubHash
  match Base64.decode s.rootKeyHash with
  | none => .err (.text (lit "memstore: cannot decode root key hash"))
  | some k => copyKey64 k (.text (lit "memstore: root key hash has wrong length"))

/-- `DelMessageKey(myID, contactID, senderSessionPubHash, sender, msgIndex)`: the key is
overwritten with the empty string through the session's slice, that is, in the heap. -/
def delMessageKey (ms : MemStore) (myID contactID senderSessionPubHash : Bytes) (sender : Bool)
    (msgIndex : UInt64) : MemStore × Outcome Error Unit :=
  match ms.sessions (sessionKey myID contactID senderSessionPubHash) with
  | none => (ms, .err (noSessionError myID contactID))
  | some s =>
    if s.send.len ≤ msgIndex.toNat then (ms, .err indexOutOfBoundsError)
    else match (s.side sender).set ms.heap msgIndex.toNat [] with
      | .ok heap => ({ ms with heap := heap }, .ok ())
      | .err e => (ms, .err e)
      | .panic m => (ms, .panic m)

/-- **What `StoreSession` can do**: fail and change nothing, or, with both identities mapped
and slices of one length, keep a session of them at its index and record the hash. -/
theorem storeSession_cases (ms : MemStore) (myID contactID hsh rk ck : Bytes) (send recv : Slice) :
    ((ms.storeSession isMapped myID contactID hsh rk ck send recv).1 = ms ∧
      (ms.storeSession isMapped myID contactID hsh rk ck send recv).2 ≠ .ok ()) ∨
    (isMapped myID = none ∧ isMapped contactID = none ∧ send.len = recv.len ∧
      ms.storeSession isMapped myID contactID hsh rk ck send recv =
        ({ ms with
            sessions := Function.update ms.sessions (sessionKey myID contactID hsh)
              (some ⟨rk, ck, send, recv⟩)
            senderSessionPubHash := hsh }, .ok ())) := by
  unfold storeSession
  split
  · exact .inl ⟨rfl, nofun⟩
  · exact .inl ⟨rfl, nofun⟩
  · rename_i h1 h2
    split
    · exact .inl ⟨rfl, nofun⟩
    · exact .inr ⟨h1, h2, by omega, rfl⟩

/-- **What `DelMessageKey` can do**: fail and change nothing, or, for a stored session and an
index below the length of its sender slice and of the party's slice, write the empty
string to that element in the heap. -/
theorem delMessageKey_cases (ms : MemStore) (myID contactID hsh : Bytes) (sender : Bool)
    (i : UInt64) :
    ((ms.delMessageKey myID contactID hsh sender i).1 = ms ∧
      (ms.delMessageKey myID contactID hsh sender i).2 ≠ .ok ()) ∨
    ∃ s, ms.sessions (sessionKey myID contactID hsh) = some s ∧ i.toNat < s.send.len ∧
      i.toNat < (s.side sender).len ∧
      ms.delMessageKey myID contactID hsh sender i =
        ({ ms with heap := Function.update ms.heap ((s.side sender).cell i.toNat) [] }, .ok ()) := by
  unfold delMessageKey
  split
  · exact .inl ⟨rfl, nofun⟩
  · rename_i s hs
    split
    · exact .inl ⟨rfl, nofun⟩
    · by_cases hi : i.toNat < (s.side sender).len
      · rw [Slice.set_of_lt hi]
        exact .inr ⟨s, hs, by omega, hi, rfl⟩
      · rw [Slice.set, if_neg hi]
        exact .inl ⟨rfl, nofun⟩

end MemStore

/-! ## Calls -/

/-- A call of one of the store's methods, with its arguments. -/
inductive Op where
  | addPrivateKeyEntry (ke : Option KeyEntry)
  | addPublicKeyEntry (identity : Bytes) (ke : Option KeyEntry)
  | getSessionState (myID contactID : Bytes)
  | setSessionState (myID contactID : Bytes) (sessionState : Option State)
  | storeSession (myID contactID senderSessionPubHash rootKeyHash chainKey : Bytes)
      (send recv : Slice)
  | hasSession (myID contactID senderSessionPubHash : Bytes)
  | getPrivateKeyEntry (pubKeyHash : Bytes)
  | getPublicKeyEntry (uidMsg : Option Bytes)
  | numMessageKeys (myID contactID senderSessionPubHash : Bytes)
  | getMessageKey (myID contactID senderSessionPubHash : Bytes) (sender : Bool) (msgIndex : UInt64)
  | getRootKeyHash (myID contactID senderSessionPubHash : Bytes)
  | delMessageKey (myID contactID senderSessionPubHash : Bytes) (sender : Bool) (msgIndex : UInt64)
  | senderSessionPubHash

/-- What a method returns. -/
inductive Ret where
  | unit
  | state (st : Option State)
  | bool (b : Bool)
  | keyEntry (ke : KeyEntry)
  | publicKeyEntry (ke : Option KeyEntry) (nymAddress : Bytes)
  | count (n : UInt64)
  | key (k : Key64)
  | hash (h : Bytes)
  deriving DecidableEq

variable (isMapped : Bytes → Option Bytes)

/-- One call: the store after it and its outcome. -/
def step (ms : MemStore) : Op → MemStore × Outcome Error Ret
  | .addPrivateKeyEntry ke =>
    let r := ms.addPrivateKeyEntry ke
    (r.1, (fun _ => Ret.unit) <$> r.2)
  | .addPublicKeyEntry identity ke => (ms.addPublicKeyEntry identity ke, .ok .unit)
  | .getSessionState myID contactID => (ms, Ret.state <$> ms.getSessionState myID contactID)
  | .setSessionState myID contactID st =>
    let r := ms.setSessionState myID contactID st
    (r.1, (fun _ => Ret.unit) <$> r.2)
  | .storeSession myID contactID h rootKeyHash chainKey send recv =>
    let r := ms.storeSession isMapped myID contactID h rootKeyHash chainKey send recv
    (r.1, (fun _ => Ret.unit) <$> r.2)
  | .hasSession myID contactID h => (ms, .ok (.bool (ms.hasSession myID contactID h)))
  | .getPrivateKeyEntry pubKeyHash => (ms, Ret.keyEntry <$> ms.getPrivateKeyEntry pubKeyHash)
  | .getPublicKeyEntry uidMsg =>
    (ms, (fun r => Ret.publicKeyEntry r.1 r.2) <$> ms.getPublicKeyEntry uidMsg)
  | .numMessageKeys myID contactID h => (ms, Ret.count <$> ms.numMessageKeys myID contactID h)
  | .getMessageKey myID contactID h sender i =>
    (ms, Ret.key <$> ms.getMessageKey myID contactID h sender i)
  | .getRootKeyHash myID contactID h => (ms, Ret.key <$> ms.getRootKeyHash myID contactID h)
  | .delMessageKey myID contactID h sender i =>
    let r := ms.delMessageKey myID contactID h sender i
    (r.1, (fun _ => Ret.unit) <$> r.2)
  | .senderSessionPubHash => (ms, .ok (.hash ms.senderSessionPubHash))

/-- The store after a sequence of calls. -/
def run (ms : MemStore) (ops : List Op) : MemStore :=
  ops.foldl (fun ms op => (step isMapped ms op).1) ms

@[simp] theorem run_nil (ms : MemStore) : run isMapped ms [] = ms := rfl

@[simp] theorem run_cons (ms : MemStore) (op : Op) (ops : List Op) :
    run isMapped ms (op :: ops) = run isMapped (step isMapped ms op).1 ops := rfl

@[simp] theorem run_append (ms : MemStore) (ops ops' : List Op) :
    run isMapped ms (ops ++ ops') = run isMapped (run isMapped ms ops) ops' :=
  List.foldl_append ..

/-- A call that returns an error or panics leaves the store as it was: every method
changes the store only on its way to a result. -/
theorem step_err_eq (ms : MemStore) (op : Op) (h : ∀ r, (step isMapped ms op).2 ≠ .ok r) :
    (step isMapped ms op).1 = ms := by
  cases op with
  | addPrivateKeyEntry ke => cases ke <;> simp_all [step, MemStore.addPrivateKeyEntry]
  | setSessionState myID contactID st => cases st <;> simp_all [step, MemStore.setSessionState]
  | storeSession myID contactID hsh rk ck send recv =>
    rcases MemStore.storeSession_cases isMapped ms myID contactID hsh rk ck send recv with
      ⟨h1, -⟩ | ⟨-, -, -, h2⟩
    · exact h1
    · simp [step, h2] at h
  | delMessageKey myID contactID hsh sender i =>
    rcases MemStore.delMessageKey_cases ms myID contactID hsh sender i with
      ⟨h1, -⟩ | ⟨s, -, -, -, h2⟩
    · exact h1
    · simp [step, h2] at h
  | _ => simp_all [step]

/-- **Only `StoreSession` writes a session**: after any call, the session at an index is
the one the store held, or the call stored one there, of slices of one length. -/
theorem sessions_step (ms : MemStore) (op : Op) (idx : Bytes) :
    (step isMapped ms op).1.sessions idx = ms.sessions idx ∨
      ∃ myID contactID hsh rk ck send recv,
        op = .storeSession myID contactID hsh rk ck send recv ∧ idx = sessionKey myID contactID hsh ∧
        send.len = recv.len ∧ (step isMapped ms op).1.sessions idx = some ⟨rk, ck, send, recv⟩ := by
  cases op with
  | addPrivateKeyEntry ke => cases ke <;> exact .inl rfl
  | setSessionState myID contactID st => cases st <;> exact .inl rfl
  | storeSession myID contactID hsh rk ck send recv =>
    rcases MemStore.storeSession_cases isMapped ms myID contactID hsh rk ck send recv with
      ⟨h1, -⟩ | ⟨-, -, hlen, h2⟩
    · exact .inl (by simp only [step, h1])
    · by_cases hi : idx = sessionKey myID contactID hsh
      · exact .inr ⟨_, _, _, _, _, _, _, rfl, hi, hlen, by simp [step, h2, hi]⟩
      · exact .inl (by simp [step, h2, Function.update_noteq hi])
  | delMessageKey myID contactID hsh sender i =>
    rcases MemStore.delMessageKey_cases ms myID contactID hsh sender i with
      ⟨h1, -⟩ | ⟨s, -, -, -, h2⟩
    · exact .inl (by simp only [step, h1])
    · exact .inl (by simp only [step, h2])
  | _ => exact .inl rfl

/-- **Only `DelMessageKey` writes the heap**: after any call, a place holds what it held,
or the empty string written through a slice of a session the store held. -/
theorem heap_step (ms : MemStore) (op : Op) (c : Nat × Nat) :
    (step isMapped ms op).1.heap c = ms.heap c ∨
      ∃ idx s sender i, ms.sessions idx = some s ∧ i < (s.side sender).len ∧
        c = (s.side sender).cell i ∧ (step isMapped ms op).1.heap c = [] := by
  cases op with
  | addPrivateKeyEntry ke => cases ke <;> exact .inl rfl
  | setSessionState myID contactID st => cases st <;> exact .inl rfl
  | storeSession myID contactID hsh rk ck send recv =>
    rcases MemStore.storeSession_cases isMapped ms myID contactID hsh rk ck send recv with
      ⟨h1, -⟩ | ⟨-, -, -, h2⟩
    · exact .inl (by simp only [step, h1])
    · exact .inl (by simp only [step, h2])
  | delMessageKey myID contactID hsh sender i =>
    rcases MemStore.delMessageKey_cases ms myID contactID hsh sender i with
      ⟨h1, -⟩ | ⟨s, hs, -, hi, h2⟩
    · exact .inl (by simp only [step, h1])
    · by_cases hc : c = (s.side sender).cell i.toNat
      · exact .inr ⟨_, s, sender, i.toNat, hs, hi, hc, by simp [step, h2, hc]⟩
      · exact .inl (by simp [step, h2, Function.update_noteq hc])
  | _ => exact .inl rfl

end Mute.Memstore
