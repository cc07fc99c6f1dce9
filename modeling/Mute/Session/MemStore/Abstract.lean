import Mute.Session.MemStore.Store

/-!
# The store as maps of tuples

The store's string indexes `myID@contactID` and `myID@contactID@senderSessionPubHash`
stand for tuples. When every identity holds exactly one `@` (`OneAt`, as mapped
identities such as `alice@mute.berlin` do), the joined strings decompose uniquely
(`sessionKey_inj`, `sessionStateKey_inj`), and the store is meant to behave as `Store`: a
map from identity pairs to session states and a map from triples to sessions of 64-byte
keys, a used key `none`, whose two key lists have one length by construction.

- `Call`: a call of the abstract store; `Call.toOp`: the concrete call, given the slices
  that hold `StoreSession`'s keys; `Call.Renders`: a concrete call is an abstract one, in a
  heap where those slices hold the encoded keys.
- `Call.Valid`: the claim's conditions on arguments: one `@` in every identity, and a
  session state that is not nil.
- `Store.step_sessions_frame`, `Store.step_states_frame`: an abstract call writes only the
  entry it names.
-/

namespace Mute.Memstore

open Uid Session

/-- The byte `@`. -/
def atSign : UInt8 := 64

theorem lit_at : lit "@" = [atSign] := rfl

/-- An identity with exactly one `@`. -/
def OneAt (id : Bytes) : Prop := id.count atSign = 1

instance : DecidablePred OneAt := fun id => inferInstanceAs (Decidable (id.count atSign = 1))

/-- Strings split at their first `@` agree before it and after it. -/
theorem append_at_cancel {x y u v : Bytes} (hx : atSign ∉ x) (hy : atSign ∉ y)
    (h : x ++ atSign :: u = y ++ atSign :: v) : x = y ∧ u = v := by
  induction x generalizing y with
  | nil =>
    cases y with
    | nil => simpa using h
    | cons c y => simp only [List.nil_append, List.cons_append, List.cons.injEq] at h
                  exact absurd (h.1 ▸ List.mem_cons_self _ _) hy
  | cons c x ih =>
    cases y with
    | nil => simp only [List.nil_append, List.cons_append, List.cons.injEq] at h
             exact absurd (h.1 ▸ List.mem_cons_self _ _) hx
    | cons d y =>
      simp only [List.cons_append, List.cons.injEq] at h
      obtain ⟨rfl, h⟩ := h
      have := ih (List.not_mem_of_not_mem_cons hx) (List.not_mem_of_not_mem_cons hy) h
      exact ⟨by rw [this.1], this.2⟩

/-- An identity with one `@` is the part before it, the `@`, and the part after it. -/
theorem OneAt.split {id : Bytes} (h : OneAt id) :
    ∃ a b, id = a ++ atSign :: b ∧ atSign ∉ a ∧ atSign ∉ b := by
  induction id with
  | nil => simp [OneAt] at h
  | cons c id ih =>
    by_cases hc : c = atSign
    · subst hc
      exact ⟨[], id, rfl, List.not_mem_nil _, List.count_eq_zero.mp (by simpa [OneAt] using h)⟩
    · obtain ⟨a, b, rfl, ha, hb⟩ := ih (by simpa [OneAt, List.count_cons, hc] using h)
      exact ⟨c :: a, b, rfl, by simp [Ne.symm hc, ha], hb⟩

/-- **Unique decomposition** of session indexes. -/
theorem sessionKey_inj {a b h a' b' h' : Bytes} (ha : OneAt a) (hb : OneAt b) (ha' : OneAt a')
    (hb' : OneAt b') (heq : sessionKey a b h = sessionKey a' b' h') :
    a = a' ∧ b = b' ∧ h = h' := by
  obtain ⟨a1, a2, rfl, ha1, ha2⟩ := ha.split
  obtain ⟨b1, b2, rfl, hb1, hb2⟩ := hb.split
  obtain ⟨a1', a2', rfl, ha1', ha2'⟩ := ha'.split
  obtain ⟨b1', b2', rfl, hb1', hb2'⟩ := hb'.split
  simp only [sessionKey, lit_at, List.append_assoc, List.cons_append, List.nil_append] at heq
  obtain ⟨rfl, h1⟩ := append_at_cancel ha1 ha1' heq
  obtain ⟨rfl, h2⟩ := append_at_cancel ha2 ha2' h1
  obtain ⟨rfl, h3⟩ := append_at_cancel hb1 hb1' h2
  obtain ⟨rfl, rfl⟩ := append_at_cancel hb2 hb2' h3
  exact ⟨rfl, rfl, rfl⟩

/-- Unique decomposition of session state indexes. -/
theorem sessionStateKey_inj {a b a' b' : Bytes} (ha : OneAt a) (hb : OneAt b) (ha' : OneAt a')
    (hb' : OneAt b') (heq : sessionStateKey a b = sessionStateKey a' b') : a = a' ∧ b = b' := by
  obtain ⟨a1, a2, rfl, ha1, ha2⟩ := ha.split
  obtain ⟨b1, b2, rfl, hb1, hb2⟩ := hb.split
  obtain ⟨a1', a2', rfl, ha1', ha2'⟩ := ha'.split
  obtain ⟨b1', b2', rfl, hb1', hb2'⟩ := hb'.split
  simp only [sessionStateKey, lit_at, List.append_assoc, List.cons_append, List.nil_append]
    at heq
  obtain ⟨rfl, h1⟩ := append_at_cancel ha1 ha1' heq
  obtain ⟨rfl, h2⟩ := append_at_cancel ha2 ha2' h1
  obtain ⟨rfl, rfl⟩ := append_at_cancel hb1 hb1' h2
  exact ⟨rfl, rfl⟩

/-! ## The abstract store -/

/-- The keys of one session of the abstract store: the root key hash, the chain key, and
two lists of one length of 64-byte message keys, a used key `none`. -/
structure SessionKeys where
  rootKeyHash : Key64
  chainKey : Bytes
  send : List (Option Key64)
  recv : List (Option Key64)
  aligned : send.length = recv.length

namespace SessionKeys

/-- The list of one party: `send` for the sender, `recv` for the recipient. -/
def side (s : SessionKeys) (sender : Bool) : List (Option Key64) :=
  if sender then s.send else s.recv

@[simp] theorem length_side (s : SessionKeys) (sender : Bool) :
    (s.side sender).length = s.send.length := by
  cases sender
  · exact s.aligned.symm
  · rfl

/-- Key `i` of one party, for `i` below the number of keys. -/
def key (s : SessionKeys) (sender : Bool) (i : Nat) (h : i < s.send.length) : Option Key64 :=
  have : i < (s.side sender).length := by simpa using h
  (s.side sender)[i]

/-- The session with key `i` of one party used. -/
def use (s : SessionKeys) (sender : Bool) (i : Nat) : SessionKeys :=
  if sender then { s with send := s.send.set i none, aligned := by simpa using s.aligned }
  else { s with recv := s.recv.set i none, aligned := by simpa using s.aligned }

@[simp] theorem length_send_use (s : SessionKeys) (sender : Bool) (i : Nat) :
    (s.use sender i).send.length = s.send.length := by
  cases sender <;> simp [use]

end SessionKeys

/-- The store as a map from identity pairs to session states and a map from triples to
session keys. -/
structure Store where
  privateKeyEntries : Bytes → Option KeyEntry
  publicKeyEntries : Bytes → Option (Option KeyEntry)
  states : Bytes × Bytes → Option State
  sessions : Bytes × Bytes × Bytes → Option SessionKeys
  senderSessionPubHash : Bytes

/-- A call of the abstract store: an `Op` whose 64-byte values are not yet base64 encoded,
whose `StoreSession` takes key lists rather than slices, and whose key entry and message
pointers are not nil (the store reads through them); a session state may be nil. -/
inductive Call where
  | addPrivateKeyEntry (ke : KeyEntry)
  | addPublicKeyEntry (identity : Bytes) (ke : Option KeyEntry)
  | getSessionState (myID contactID : Bytes)
  | setSessionState (myID contactID : Bytes) (sessionState : Option State)
  | storeSession (myID contactID senderSessionPubHash : Bytes) (rootKeyHash : Key64)
      (chainKey : Bytes) (send recv : List Key64)
  | hasSession (myID contactID senderSessionPubHash : Bytes)
  | getPrivateKeyEntry (pubKeyHash : Bytes)
  | getPublicKeyEntry (identity : Bytes)
  | numMessageKeys (myID contactID senderSessionPubHash : Bytes)
  | getMessageKey (myID contactID senderSessionPubHash : Bytes) (sender : Bool) (msgIndex : UInt64)
  | getRootKeyHash (myID contactID senderSessionPubHash : Bytes)
  | delMessageKey (myID contactID senderSessionPubHash : Bytes) (sender : Bool) (msgIndex : UInt64)
  | senderSessionPubHash

/-- A key as the concrete store receives it: base64 encoded. -/
def encodeKey (k : Key64) : Bytes := Base64.encode k.val

namespace Call

/-- The concrete call, with `send` and `recv` the slices that hold `StoreSession`'s keys
(the other calls pass no slice). -/
def toOp (send recv : Slice) : Call → Op
  | .addPrivateKeyEntry ke => .addPrivateKeyEntry (some ke)
  | .addPublicKeyEntry identity ke => .addPublicKeyEntry identity ke
  | .getSessionState a b => .getSessionState a b
  | .setSessionState a b st => .setSessionState a b st
  | .storeSession a b h rk ck _ _ => .storeSession a b h (encodeKey rk) ck send recv
  | .hasSession a b h => .hasSession a b h
  | .getPrivateKeyEntry k => .getPrivateKeyEntry k
  | .getPublicKeyEntry identity => .getPublicKeyEntry (some identity)
  | .numMessageKeys a b h => .numMessageKeys a b h
  | .getMessageKey a b h sender i => .getMessageKey a b h sender i
  | .getRootKeyHash a b h => .getRootKeyHash a b h
  | .delMessageKey a b h sender i => .delMessageKey a b h sender i
  | .senderSessionPubHash => .senderSessionPubHash

/-- In `heap`, the slices `send` and `recv` hold the call's keys base64 encoded. -/
def KeysIn (heap : Heap) (send recv : Slice) : Call → Prop
  | .storeSession _ _ _ _ _ sendKeys recvKeys =>
    send.read heap = sendKeys.map encodeKey ∧ recv.read heap = recvKeys.map encodeKey
  | _ => True

/-- `op` is the call `c` made in a program whose backing arrays hold `heap`. -/
def Renders (heap : Heap) (c : Call) (op : Op) : Prop :=
  ∃ send recv, op = c.toOp send recv ∧ c.KeysIn heap send recv

/-- Every `myID` and `contactID` of the call holds exactly one `@`, and a session state it
sets is not nil. -/
def Valid : Call → Prop
  | .setSessionState a b st => OneAt a ∧ OneAt b ∧ st.isSome
  | .getSessionState a b | .storeSession a b _ _ _ _ _
  | .hasSession a b _ | .numMessageKeys a b _ | .getMessageKey a b _ _ _
  | .getRootKeyHash a b _ | .delMessageKey a b _ _ _ => OneAt a ∧ OneAt b
  | _ => True

/-- The session the call writes. -/
def sessionTarget : Call → Option (Bytes × Bytes × Bytes)
  | .storeSession a b h _ _ _ _ | .delMessageKey a b h _ _ => some (a, b, h)
  | _ => none

/-- The session state the call writes. -/
def stateTarget : Call → Option (Bytes × Bytes)
  | .setSessionState a b _ => some (a, b)
  | _ => none

end Call

namespace Store

variable (isMapped : Bytes → Option Bytes)

/-- The empty store. -/
def new : Store := ⟨fun _ => none, fun _ => none, fun _ => none, fun _ => none, []⟩

/-- `StoreSession`: both identities mapped and the lists of one length, or an error. -/
def storeSession (st : Store) (myID contactID hsh : Bytes) (rootKeyHash : Key64)
    (chainKey : Bytes) (send recv : List Key64) : Store × Outcome Error Unit :=
  match isMapped myID, isMapped contactID with
  | some e, _ => (st, .err (.identity e))
  | none, some e => (st, .err (.identity e))
  | none, none =>
    if h : send.length = recv.length then
      let s : SessionKeys := ⟨rootKeyHash, chainKey, send.map some, recv.map some, by simpa using h⟩
      ({ st with sessions := Function.update st.sessions (myID, contactID, hsh) (some s)
                 senderSessionPubHash := hsh }, .ok ())
    else (st, .err lenMismatchError)

/-- `GetMessageKey`: the key, or which of missing session, index out of range and used
key it is. -/
def getMessageKey (st : Store) (myID contactID hsh : Bytes) (sender : Bool) (i : UInt64) :
    Outcome Error Key64 :=
  match st.sessions (myID, contactID, hsh) with
  | none => .err (noSessionError myID contactID)
  | some s =>
    if h : i.toNat < s.send.length then
      match s.key sender i.toNat h with
      | none => .err .messageKeyUsed
      | some k => .ok k
    else .err indexOutOfBoundsError

/-- `DelMessageKey`: the key marked used. -/
def delMessageKey (st : Store) (myID contactID hsh : Bytes) (sender : Bool) (i : UInt64) :
    Store × Outcome Error Unit :=
  match st.sessions (myID, contactID, hsh) with
  | none => (st, .err (noSessionError myID contactID))
  | some s =>
    if i.toNat < s.send.length then
      ({ st with sessions :=
          Function.update st.sessions (myID, contactID, hsh) (some (s.use sender i.toNat)) },
        .ok ())
    else (st, .err indexOutOfBoundsError)

/-- A session's value, or the error for a missing one. -/
def withSession (st : Store) (myID contactID hsh : Bytes) (f : SessionKeys → Ret) :
    Outcome Error Ret :=
  match st.sessions (myID, contactID, hsh) with
  | some s => .ok (f s)
  | none => .err (noSessionError myID contactID)

/-- One call of the abstract store. -/
def step (st : Store) : Call → Store × Outcome Error Ret
  | .addPrivateKeyEntry ke =>
    ({ st with privateKeyEntries := Function.update st.privateKeyEntries ke.hash (some ke) },
      .ok .unit)
  | .addPublicKeyEntry identity ke =>
    ({ st with publicKeyEntries := Function.update st.publicKeyEntries identity (some ke) },
      .ok .unit)
  | .getSessionState a b => (st, .ok (.state (st.states (a, b))))
  | .setSessionState a b s => ({ st with states := Function.update st.states (a, b) s }, .ok .unit)
  | .storeSession a b h rk ck send recv =>
    let r := st.storeSession isMapped a b h rk ck send recv
    (r.1, (fun _ => Ret.unit) <$> r.2)
  | .hasSession a b h => (st, .ok (.bool (st.sessions (a, b, h)).isSome))
  | .getPrivateKeyEntry k =>
    (st, match st.privateKeyEntries k with
      | some ke => .ok (.keyEntry ke)
      | none => .err (noKeyEntryError k))
  | .getPublicKeyEntry identity =>
    (st, match st.publicKeyEntries identity with
      | some ke => .ok (.publicKeyEntry ke (lit "undefined"))
      | none => .err .noKeyInit)
  | .numMessageKeys a b h =>
    (st, st.withSession a b h fun s => .count (UInt64.ofNat s.send.length))
  | .getMessageKey a b h sender i => (st, Ret.key <$> st.getMessageKey a b h sender i)
  | .getRootKeyHash a b h => (st, st.withSession a b h fun s => .key s.rootKeyHash)
  | .delMessageKey a b h sender i =>
    let r := st.delMessageKey a b h sender i
    (r.1, (fun _ => Ret.unit) <$> r.2)
  | .senderSessionPubHash => (st, .ok (.hash st.senderSessionPubHash))

/-- The store after a sequence of calls. -/
def run (st : Store) (calls : List Call) : Store :=
  calls.foldl (fun st c => (step isMapped st c).1) st

/-- A call writes no session but the one it names. -/
theorem step_sessions_frame (st : Store) (c : Call) {t : Bytes × Bytes × Bytes}
    (ht : c.sessionTarget ≠ some t) : (st.step isMapped c).1.sessions t = st.sessions t := by
  cases c with
  | storeSession a b h rk ck send recv =>
    have ht' : t ≠ (a, b, h) := fun e => ht (by rw [e]; rfl)
    simp only [step, storeSession]
    split
    · rfl
    · rfl
    · split
      · exact Function.update_noteq ht' _ _
      · rfl
  | delMessageKey a b h sender i =>
    have ht' : t ≠ (a, b, h) := fun e => ht (by rw [e]; rfl)
    simp only [step, delMessageKey]
    split
    · rfl
    · split
      · exact Function.update_noteq ht' _ _
      · rfl
  | _ => rfl

/-- A call writes no session state but the one it names. -/
theorem step_states_frame (st : Store) (c : Call) {t : Bytes × Bytes}
    (ht : c.stateTarget ≠ some t) : (st.step isMapped c).1.states t = st.states t := by
  cases c with
  | setSessionState a b x =>
    exact Function.update_noteq (fun e => ht (by rw [e]; rfl)) _ _
  | storeSession a b h rk ck send recv =>
    simp only [step, storeSession]
    split
    · rfl
    · rfl
    · split <;> rfl
  | delMessageKey a b h sender i =>
    simp only [step, delMessageKey]
    split
    · rfl
    · split <;> rfl
  | _ => rfl

end Store

end Mute.Memstore
