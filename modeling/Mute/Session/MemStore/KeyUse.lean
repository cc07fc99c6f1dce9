import Mute.Session.MemStore.Invariant

/-!
# A deleted message key stays used

The message keys of a session are one-time keys (spec §5: a key at index `i` is
retrievable at most once, and a second retrieval fails as "already used", not as "not
found" or "out of range"). The engine reads a key with `GetMessageKey` and deletes it
with `DelMessageKey`, which writes the empty string to its place in the heap;
`GetMessageKey` returns `ErrMessageKeyUsed` for an empty key. No call writes a key back:
the heap is only ever written with the empty string (`heap_step`), and only
`StoreSession` replaces a session, slices and all (`sessions_step`). This holds whether or
not the slices of sessions share places.

- `Op.storesAt`: the call is a `StoreSession` of the session at an index.
- `sessions_run`: a run of other calls keeps the session at that index, so
  **`session_shape_run`**: `HasSession`, `NumMessageKeys` and `GetRootKeyHash` of it keep
  their results.
- `KeyUsed`: a key is the empty string in the session the store holds;
  `keyUsed_step`, `keyUsed_run`: it stays so over every call and every run that stores no
  session at its index.
- **`messageKey_used_once`**: in every run from `New()`, once `DelMessageKey` of a key
  succeeds, `GetMessageKey` of that key returns `ErrMessageKeyUsed` after every sequence
  of later calls, until a `StoreSession` replaces its session.
-/

namespace Mute.Memstore

open Session

/-- The call is a `StoreSession` of the session at `idx`, whether or not it succeeds. -/
def Op.storesAt (idx : Bytes) : Op → Bool
  | .storeSession myID contactID h _ _ _ _ => sessionKey myID contactID h == idx
  | _ => false

variable (isMapped : Bytes → Option Bytes)

/-! ## The session at an index -/

/-- **Step**: a call that stores no session at `idx` keeps the session there. -/
theorem sessions_step_of_storesAt (ms : MemStore) {idx : Bytes} (op : Op)
    (hop : op.storesAt idx = false) : (step isMapped ms op).1.sessions idx = ms.sessions idx := by
  rcases sessions_step isMapped ms op idx with h | ⟨_, _, _, _, _, _, _, rfl, rfl, -, -⟩
  · exact h
  · simp [Op.storesAt] at hop

/-- **Run**: a sequence of calls none of which stores a session at `idx` keeps the session
there. -/
theorem sessions_run (ms : MemStore) {idx : Bytes} {ops : List Op}
    (hops : ∀ op ∈ ops, op.storesAt idx = false) :
    (run isMapped ms ops).sessions idx = ms.sessions idx := by
  induction ops generalizing ms with
  | nil => rfl
  | cons op ops ih =>
    rw [run_cons, ih _ fun op' h' => hops op' (List.mem_cons_of_mem op h'),
      sessions_step_of_storesAt isMapped ms op (hops op (List.mem_cons_self op ops))]

/-- `HasSession`, `NumMessageKeys` and `GetRootKeyHash` read nothing but the session at
their index. -/
theorem reads_of_sessions_eq {ms ms' : MemStore} {myID contactID hsh : Bytes}
    (h : ms'.sessions (sessionKey myID contactID hsh) = ms.sessions (sessionKey myID contactID hsh)) :
    ms'.hasSession myID contactID hsh = ms.hasSession myID contactID hsh ∧
      ms'.numMessageKeys myID contactID hsh = ms.numMessageKeys myID contactID hsh ∧
      ms'.getRootKeyHash myID contactID hsh = ms.getRootKeyHash myID contactID hsh := by
  simp only [MemStore.hasSession, MemStore.numMessageKeys, MemStore.getRootKeyHash,
    MemStore.lookupSession, h, and_self]

/-- **Only `StoreSession` changes the shape of a session**: from any store, after every
sequence of calls that stores no session at its index, `HasSession`, `NumMessageKeys` and
`GetRootKeyHash` of the session return what they returned before; deleting keys never
shortens a chain or changes its root key hash. -/
theorem session_shape_run (ms : MemStore) (ops : List Op) (myID contactID hsh : Bytes)
    (hops : ∀ op ∈ ops, op.storesAt (sessionKey myID contactID hsh) = false) :
    (run isMapped ms ops).hasSession myID contactID hsh = ms.hasSession myID contactID hsh ∧
      (run isMapped ms ops).numMessageKeys myID contactID hsh =
        ms.numMessageKeys myID contactID hsh ∧
      (run isMapped ms ops).getRootKeyHash myID contactID hsh =
        ms.getRootKeyHash myID contactID hsh :=
  reads_of_sessions_eq (sessions_run isMapped ms hops)

/-- Alice's session with Bob keeps its one-key chain after its sender key is deleted. -/
theorem session_shape_run_alice :
    (∀ op ∈ [Op.delMessageKey (lit "alice") (lit "bob") [] true 0],
        op.storesAt (sessionKey (lit "alice") (lit "bob") []) = false) ∧
      (run (fun _ => none) (run (fun _ => none) (.new fun _ => lit "k")
          [.storeSession (lit "alice") (lit "bob") [] [] [] ⟨0, 0, 1⟩ ⟨1, 0, 1⟩])
          [.delMessageKey (lit "alice") (lit "bob") [] true 0]).numMessageKeys
          (lit "alice") (lit "bob") [] =
        (run (fun _ => none) (.new fun _ => lit "k")
          [.storeSession (lit "alice") (lit "bob") [] [] [] ⟨0, 0, 1⟩ ⟨1, 0, 1⟩]).numMessageKeys
          (lit "alice") (lit "bob") [] :=
  have h := session_shape_run (fun _ => none) (run (fun _ => none) (.new fun _ => lit "k")
    [.storeSession (lit "alice") (lit "bob") [] [] [] ⟨0, 0, 1⟩ ⟨1, 0, 1⟩])
    [.delMessageKey (lit "alice") (lit "bob") [] true 0] (lit "alice") (lit "bob") [] (by decide)
  ⟨by decide, h.2.1⟩

/-! ## Used keys -/

/-- Key `i` of the `sender` slice of the session at `idx` is used: the store holds a
session there, `i` is below the length of its sender slice and of the party's slice, and
the party's element `i` is the empty string. -/
def KeyUsed (ms : MemStore) (idx : Bytes) (sender : Bool) (i : Nat) : Prop :=
  ∃ s, ms.sessions idx = some s ∧ i < s.send.len ∧ i < (s.side sender).len ∧
    ms.heap ((s.side sender).cell i) = []

/-- **Step**: a used key stays used over every call that stores no session at its
index. -/
theorem keyUsed_step {ms : MemStore} {idx : Bytes} {sender : Bool} {i : Nat}
    (h : KeyUsed ms idx sender i) (op : Op) (hop : op.storesAt idx = false) :
    KeyUsed (step isMapped ms op).1 idx sender i := by
  obtain ⟨s, hs, hi, hi', hk⟩ := h
  refine ⟨s, (sessions_step_of_storesAt isMapped ms op hop).trans hs, hi, hi', ?_⟩
  rcases heap_step isMapped ms op ((s.side sender).cell i) with hc | ⟨_, _, _, _, _, _, _, hc⟩
  · rw [hc, hk]
  · exact hc

/-- **Run**: a used key stays used over every sequence of calls none of which stores a
session at its index. -/
theorem keyUsed_run {ms : MemStore} {idx : Bytes} {sender : Bool} {i : Nat}
    (h : KeyUsed ms idx sender i) {ops : List Op} (hops : ∀ op ∈ ops, op.storesAt idx = false) :
    KeyUsed (run isMapped ms ops) idx sender i := by
  induction ops generalizing ms with
  | nil => exact h
  | cons op ops ih =>
    exact ih (keyUsed_step isMapped h op (hops op (List.mem_cons_self op ops)))
      fun op' h' => hops op' (List.mem_cons_of_mem op h')

/-- A successful `DelMessageKey` leaves its key used. -/
theorem keyUsed_delMessageKey {ms : MemStore} {myID contactID hsh : Bytes} {sender : Bool}
    {i : UInt64} (h : (ms.delMessageKey myID contactID hsh sender i).2 = .ok ()) :
    KeyUsed (ms.delMessageKey myID contactID hsh sender i).1 (sessionKey myID contactID hsh) sender
      i.toNat := by
  rcases MemStore.delMessageKey_cases ms myID contactID hsh sender i with
    ⟨-, hne⟩ | ⟨s, hs, hi, hi', hd⟩
  · exact absurd h hne
  · rw [hd]
    exact ⟨s, hs, hi, hi', Function.update_same ..⟩

/-- `GetMessageKey` of a used key returns `ErrMessageKeyUsed`: the key is within the bound it
checks, for either party. -/
theorem getMessageKey_of_keyUsed {ms : MemStore} {myID contactID hsh : Bytes} {sender : Bool}
    {i : UInt64} (h : KeyUsed ms (sessionKey myID contactID hsh) sender i.toNat) :
    ms.getMessageKey myID contactID hsh sender i = .err .messageKeyUsed := by
  obtain ⟨s, hs, hi, hi', hk⟩ := h
  simp [MemStore.getMessageKey, MemStore.lookupSession, hs, Nat.not_le.mpr hi,
    Slice.get_of_lt hi', hk, decodeMessageKey]

/-- **A message key is used at most once**: in every run from `New()`, once
`DelMessageKey` of a key succeeds, `GetMessageKey` of that key returns
`ErrMessageKeyUsed` after every sequence of later calls that stores no session at its
index. -/
theorem messageKey_used_once (heap : Heap) (ops ops' : List Op) (myID contactID hsh : Bytes)
    (sender : Bool) (i : UInt64)
    (hdel : (step isMapped (run isMapped (.new heap) ops)
      (.delMessageKey myID contactID hsh sender i)).2 = .ok .unit)
    (hkeep : ∀ op ∈ ops', op.storesAt (sessionKey myID contactID hsh) = false) :
    (run isMapped (.new heap) (ops ++ .delMessageKey myID contactID hsh sender i :: ops')).getMessageKey
      myID contactID hsh sender i = .err .messageKeyUsed := by
  obtain ⟨_, hd, -⟩ := Outcome.map_eq_ok.mp hdel
  rw [run_append, run_cons]
  exact getMessageKey_of_keyUsed (keyUsed_run isMapped (keyUsed_delMessageKey hd) hkeep)

/-- Alice's session with Bob, one key per slice: after its sender key is deleted and the
session is asked whether it exists, the key is used. -/
theorem messageKey_used_once_alice :
    (step (fun _ => none)
        (run (fun _ => none) (.new fun _ => lit "k")
          [.storeSession (lit "alice") (lit "bob") [] [] [] ⟨0, 0, 1⟩ ⟨1, 0, 1⟩])
        (.delMessageKey (lit "alice") (lit "bob") [] true 0)).2 = .ok .unit ∧
      (∀ op ∈ [Op.hasSession (lit "alice") (lit "bob") []],
        op.storesAt (sessionKey (lit "alice") (lit "bob") []) = false) ∧
      (run (fun _ => none) (.new fun _ => lit "k")
          ([.storeSession (lit "alice") (lit "bob") [] [] [] ⟨0, 0, 1⟩ ⟨1, 0, 1⟩] ++
            .delMessageKey (lit "alice") (lit "bob") [] true 0 ::
              [.hasSession (lit "alice") (lit "bob") []])).getMessageKey
        (lit "alice") (lit "bob") [] true 0 = .err .messageKeyUsed :=
  ⟨by decide, by decide,
    messageKey_used_once (fun _ => none) _ _ _ _ _ _ _ _ (by decide) (by decide)⟩

end Mute.Memstore
