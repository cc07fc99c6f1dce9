import Mute.Session.MemStore.Abstract

/-!
# MemStore refines the abstract store while its slices share nothing

`Refines ms st`: at every tuple of identities with one `@` each, the session the
`MemStore` holds, read through its slices (`MemStore.viewAt`), is the base64 form of what
`st` holds (`SessionKeys.encode`: keys base64 encoded, a used key the empty string); the
key entry maps, the session states and the last sender session hash agree; and no two
slices the store keeps share a place (`Separate`), so that `DelMessageKey`, which writes
through one slice, changes no other.

Each call with such identities, whose `StoreSession` slices hold the encoded keys and
share no place with each other or with a slice the store keeps (`Op.FreshIn`), returns
what the abstract call returns and leaves related stores (`step_refines`). Over a run from
`New()` this follows from one condition on the run, `Unshared`: no two slices that its
`StoreSession` calls pass share a place. The store keeps only slices it was passed
(`WindowsIn`) and writes the heap only at their places (`HeapFrame`), so each call finds
its slices as the caller filled them and apart from every slice kept (`run_refines`).

The condition is needed (`memStore_shared_slices_diverge`): a session whose send and recv
slices are one slice loses its recipient key when its sender key is deleted, where the
abstract store still returns it; and `SetSessionState(nil)` panics where the abstract map
stores nil.
-/

namespace Mute.Memstore

open Uid Session

/-! ## What the store reads of a session -/

/-- What the store reads of a session: its root key hash, its chain key and the strings of
its two slices. -/
structure SessionView where
  rootKeyHash : Bytes
  chainKey : Bytes
  send : List Bytes
  recv : List Bytes

/-- A session as the store reads it in `heap`. -/
def MemSession.view (heap : Heap) (s : MemSession) : SessionView :=
  ⟨s.rootKeyHash, s.chainKey, s.send.read heap, s.recv.read heap⟩

/-- The session the store holds for a tuple of identities, read through its slices. -/
def MemStore.viewAt (ms : MemStore) (a b h : Bytes) : Option SessionView :=
  (ms.sessions (sessionKey a b h)).map (MemSession.view ms.heap)

/-- How the concrete store keeps a key: base64 encoded, a used key `""`. -/
def encodeSlot : Option Key64 → Bytes
  | none => []
  | some k => encodeKey k

/-- What the store reads of a session of the abstract store. -/
def SessionKeys.encode (s : SessionKeys) : SessionView :=
  ⟨encodeKey s.rootKeyHash, s.chainKey, s.send.map encodeSlot, s.recv.map encodeSlot⟩

/-- An encoded 64-byte key is 88 characters, never the empty string of a used key. -/
theorem encodeKey_ne_nil (k : Key64) : encodeKey k ≠ [] := by
  intro h
  have := congrArg List.length h
  rw [encodeKey, Base64.length_encode, k.2] at this
  simp at this

theorem decode_encodeKey (k : Key64) : Base64.decode (encodeKey k) = some k.val :=
  Base64.decode_encode _

theorem copyKey64_val (k : Key64) (e : Error) : copyKey64 k.val e = .ok k := by
  unfold copyKey64
  rw [dif_pos (by rw [k.2])]
  exact congrArg Outcome.ok (Subtype.ext (List.take_of_length_le (by rw [k.2])))

/-- `GetMessageKey`'s decoding of a stored key: a used key is `ErrMessageKeyUsed`, any
other decodes to the key stored. -/
theorem decodeMessageKey_encodeSlot (o : Option Key64) (party a b : Bytes) :
    decodeMessageKey (encodeSlot o) party a b =
      match o with
      | none => .err .messageKeyUsed
      | some k => .ok k := by
  cases o with
  | none => rfl
  | some k =>
    simp [decodeMessageKey, encodeSlot, encodeKey_ne_nil, decode_encodeKey, copyKey64_val]

theorem MemSession.view_eq_encode {s : MemSession} {sk : SessionKeys} {heap : Heap} :
    s.view heap = sk.encode ↔ s.rootKeyHash = encodeKey sk.rootKeyHash ∧ s.chainKey = sk.chainKey ∧
      s.send.read heap = sk.send.map encodeSlot ∧ s.recv.read heap = sk.recv.map encodeSlot := by
  simp only [view, SessionKeys.encode, SessionView.mk.injEq]

theorem MemSession.read_side {s : MemSession} {sk : SessionKeys} {heap : Heap}
    (hv : s.view heap = sk.encode) (sender : Bool) :
    (s.side sender).read heap = (sk.side sender).map encodeSlot := by
  obtain ⟨-, -, h3, h4⟩ := view_eq_encode.mp hv
  cases sender
  · exact h4
  · exact h3

theorem MemSession.len_send {s : MemSession} {sk : SessionKeys} {heap : Heap}
    (hv : s.view heap = sk.encode) : s.send.len = sk.send.length := by
  rw [← Slice.length_read s.send heap, (view_eq_encode.mp hv).2.2.1, List.length_map]

theorem MemSession.len_side {s : MemSession} {sk : SessionKeys} {heap : Heap}
    (hv : s.view heap = sk.encode) (sender : Bool) : (s.side sender).len = sk.send.length := by
  rw [← Slice.length_read _ heap, read_side hv, List.length_map, SessionKeys.length_side]

/-- The place of key `i` of a party holds the key the abstract session has there. -/
theorem MemSession.heap_cell_side {s : MemSession} {sk : SessionKeys} {heap : Heap}
    (hv : s.view heap = sk.encode) (sender : Bool) {i : Nat} (hi : i < sk.send.length) :
    heap ((s.side sender).cell i) = encodeSlot (sk.key sender i hi) := by
  have hl : i < ((s.side sender).read heap).length := by rw [Slice.length_read, len_side hv]; exact hi
  rw [← Slice.getElem_read _ _ hl]
  simp only [read_side hv, List.getElem_map]
  rfl

/-! ## Slices that share nothing -/

/-- The two slices of a session. -/
def MemSession.slices (s : MemSession) : List Slice := [s.send, s.recv]

theorem MemSession.side_mem_slices (s : MemSession) (sender : Bool) : s.side sender ∈ s.slices := by
  cases sender <;> simp [slices]

/-- No two slices of the stored sessions share a place: the two of a session, and those of
two sessions. -/
def Separate (sessions : Bytes → Option MemSession) : Prop :=
  (∀ idx s, sessions idx = some s → s.send.Disjoint s.recv) ∧
    ∀ idx idx' s s', idx ≠ idx' → sessions idx = some s → sessions idx' = some s' →
      ∀ x ∈ s.slices, ∀ y ∈ s'.slices, x.Disjoint y

/-- Keeping a session whose slices share nothing with each other or with a kept slice keeps
the slices apart. -/
theorem Separate.store {sessions : Bytes → Option MemSession} (hs : Separate sessions)
    (idx : Bytes) {s : MemSession} (hd : s.send.Disjoint s.recv)
    (hfresh : ∀ x ∈ s.slices, ∀ idx' s', sessions idx' = some s' → ∀ y ∈ s'.slices, x.Disjoint y) :
    Separate (Function.update sessions idx (some s)) := by
  refine ⟨fun j t ht => ?_, fun j j' t t' hjj ht ht' => ?_⟩
  · rw [Function.update_apply] at ht
    split_ifs at ht
    · cases ht; exact hd
    · exact hs.1 j t ht
  · rw [Function.update_apply] at ht ht'
    split_ifs at ht ht' with hj hj'
    · exact absurd (hj.trans hj'.symm) hjj
    · cases ht; exact fun x hx y hy => hfresh x hx j' t' ht' y hy
    · cases ht'; exact fun x hx y hy => (hfresh y hy j t ht x hx).symm
    · exact hs.2 j j' t t' hjj ht ht'

/-- Writing element `i` of a slice writes element `i` of what it reads. -/
theorem Slice.read_update_cell (s : Slice) (heap : Heap) (i : Nat) (v : Bytes) :
    s.read (Function.update heap (s.cell i) v) = (s.read heap).set i v := by
  refine List.ext_getElem (by simp) fun j h1 h2 => ?_
  rw [Slice.getElem_read, List.getElem_set, Slice.getElem_read]
  by_cases hj : i = j
  · subst hj
    simp
  · rw [if_neg hj, Function.update_noteq]
    simp only [Slice.cell, ne_eq, Prod.mk.injEq, true_and]
    omega

/-- Writing a place of another slice leaves what a slice reads. -/
theorem Slice.read_update_of_disjoint {s t : Slice} (h : s.Disjoint t) (heap : Heap) {i : Nat}
    (hi : i < t.len) (v : Bytes) : s.read (Function.update heap (t.cell i) v) = s.read heap :=
  Slice.read_congr fun _ hc =>
    Function.update_noteq (fun e => h.symm.not_holds (t.holds_cell hi) (by rwa [← e])) _ _

theorem MemSession.view_update_of_disjoint {s : MemSession} {t : Slice}
    (h : ∀ x ∈ s.slices, x.Disjoint t) (heap : Heap) {i : Nat} (hi : i < t.len) (v : Bytes) :
    s.view (Function.update heap (t.cell i) v) = s.view heap := by
  simp only [view, Slice.read_update_of_disjoint (h s.send (by simp [slices])) heap hi v,
    Slice.read_update_of_disjoint (h s.recv (by simp [slices])) heap hi v]

/-- **Deleting through a slice**: writing the empty string to key `i` of a party's slice is
using key `i` of the abstract session the store reads, when the session's two slices share
no place. -/
theorem MemSession.view_delete {s : MemSession} {sk : SessionKeys} {heap : Heap}
    (hv : s.view heap = sk.encode) (hd : s.send.Disjoint s.recv) (sender : Bool) {i : Nat}
    (hi : i < (s.side sender).len) :
    s.view (Function.update heap ((s.side sender).cell i) []) = (sk.use sender i).encode := by
  obtain ⟨h1, h2, h3, h4⟩ := view_eq_encode.mp hv
  cases sender
  · simp only [side_false] at hi ⊢
    simp [view, Slice.read_update_of_disjoint hd heap hi, Slice.read_update_cell _ _ i, h1, h2,
      h3, h4, SessionKeys.use, SessionKeys.encode, encodeSlot]
  · simp only [side_true] at hi ⊢
    simp [view, Slice.read_update_of_disjoint hd.symm heap hi, Slice.read_update_cell _ _ i, h1,
      h2, h3, h4, SessionKeys.use, SessionKeys.encode, encodeSlot]

/-- The slices a call passes: those of `StoreSession`. -/
def Op.slices : Op → List Slice
  | .storeSession _ _ _ _ _ send recv => [send, recv]
  | _ => []

/-- The slices a call passes share no place with each other or with a slice the store
keeps. -/
def Op.FreshIn (ms : MemStore) (op : Op) : Prop :=
  op.slices.Pairwise Slice.Disjoint ∧
    ∀ x ∈ op.slices, ∀ idx s, ms.sessions idx = some s → ∀ y ∈ s.slices, x.Disjoint y

/-- No two slices that the `StoreSession` calls of a run pass share a place, the two of one
call or those of two calls. -/
def Unshared (ops : List Op) : Prop := (ops.flatMap Op.slices).Pairwise Slice.Disjoint

instance : DecidablePred Unshared := fun ops =>
  inferInstanceAs (Decidable ((ops.flatMap Op.slices).Pairwise Slice.Disjoint))

/-! ## The refinement relation -/

/-- The concrete store represents the abstract one at every tuple of identities with one
`@` each, and the slices it keeps share nothing. -/
structure Refines (ms : MemStore) (st : Store) : Prop where
  privateKeys : ms.privateKeyEntryMap = st.privateKeyEntries
  publicKeys : ms.publicKeyEntryMap = st.publicKeyEntries
  states : ∀ a b, OneAt a → OneAt b → ms.sessionStates (sessionStateKey a b) = st.states (a, b)
  sessions : ∀ a b h, OneAt a → OneAt b →
    ms.viewAt a b h = (st.sessions (a, b, h)).map SessionKeys.encode
  senderSessionPubHash : ms.senderSessionPubHash = st.senderSessionPubHash
  separate : Separate ms.sessions

theorem refines_new (heap : Heap) : Refines (MemStore.new heap) Store.new :=
  ⟨rfl, rfl, fun _ _ _ _ => rfl, fun _ _ _ _ _ => rfl, rfl,
    And.intro (fun _ _ h => by cases h) (fun _ _ _ _ _ h => by cases h)⟩

section Relate

variable {ms : MemStore} {st : Store} {a b : Bytes} (hR : Refines ms st) (ha : OneAt a)
  (hb : OneAt b)
include hR ha hb

/-- Related stores hold a session for the same tuples, the concrete one reading as the
abstract one. -/
theorem Refines.session_cases (h : Bytes) :
    (ms.sessions (sessionKey a b h) = none ∧ st.sessions (a, b, h) = none) ∨
      ∃ s sk, ms.sessions (sessionKey a b h) = some s ∧ st.sessions (a, b, h) = some sk ∧
        s.view ms.heap = sk.encode := by
  have hv := hR.sessions a b h ha hb
  unfold MemStore.viewAt at hv
  cases hs : ms.sessions (sessionKey a b h) <;> cases hsk : st.sessions (a, b, h) <;>
    simp_all

/-- Writing one session on both sides keeps the stores related, when the session kept
shares no place with another slice. -/
theorem Refines.store {h : Bytes} {s : MemSession} {sk : SessionKeys} (hv : s.view ms.heap = sk.encode)
    (hd : s.send.Disjoint s.recv)
    (hfresh : ∀ x ∈ s.slices, ∀ idx s', ms.sessions idx = some s' → ∀ y ∈ s'.slices, x.Disjoint y) :
    Refines { ms with sessions := Function.update ms.sessions (sessionKey a b h) (some s)
                      senderSessionPubHash := h }
      { st with sessions := Function.update st.sessions (a, b, h) (some sk)
                senderSessionPubHash := h } := by
  refine ⟨hR.privateKeys, hR.publicKeys, hR.states, fun a' b' h' ha' hb' => ?_, rfl,
    hR.separate.store _ hd hfresh⟩
  by_cases ht : (a', b', h') = (a, b, h)
  · simp only [Prod.mk.injEq] at ht
    obtain ⟨rfl, rfl, rfl⟩ := ht
    simp [MemStore.viewAt, hv]
  · have hk : sessionKey a' b' h' ≠ sessionKey a b h := fun hk => ht (by
      obtain ⟨rfl, rfl, rfl⟩ := sessionKey_inj ha' hb' ha hb hk; rfl)
    simpa [MemStore.viewAt, Function.update_noteq hk, Function.update_noteq ht] using
      hR.sessions a' b' h' ha' hb'

/-- Deleting key `i` of a party on both sides keeps the stores related: the slices of every
other session share no place with the one written. -/
theorem Refines.delete {h : Bytes} {s : MemSession} {sk : SessionKeys}
    (hs : ms.sessions (sessionKey a b h) = some s) (hv : s.view ms.heap = sk.encode) {sender : Bool}
    {i : Nat} (hi : i < (s.side sender).len) :
    Refines { ms with heap := Function.update ms.heap ((s.side sender).cell i) [] }
      { st with sessions := Function.update st.sessions (a, b, h) (some (sk.use sender i)) } := by
  refine ⟨hR.privateKeys, hR.publicKeys, hR.states, fun a' b' h' ha' hb' => ?_,
    hR.senderSessionPubHash, hR.separate⟩
  by_cases ht : (a', b', h') = (a, b, h)
  · simp only [Prod.mk.injEq] at ht
    obtain ⟨rfl, rfl, rfl⟩ := ht
    simp [MemStore.viewAt, hs, MemSession.view_delete hv (hR.separate.1 _ s hs) sender hi]
  · have hk : sessionKey a' b' h' ≠ sessionKey a b h := fun hk => ht (by
      obtain ⟨rfl, rfl, rfl⟩ := sessionKey_inj ha' hb' ha hb hk; rfl)
    have hv' := hR.sessions a' b' h' ha' hb'
    simp only [MemStore.viewAt] at hv' ⊢
    rw [Function.update_noteq ht, ← hv']
    cases hs' : ms.sessions (sessionKey a' b' h') with
    | none => rfl
    | some s' =>
      exact congrArg some (MemSession.view_update_of_disjoint
        (fun x hx => hR.separate.2 _ _ s' s hk hs' hs x hx _ (s.side_mem_slices sender)) _ hi _)

/-- Writing one session state on both sides keeps the stores related. -/
theorem Refines.setState (x : State) :
    Refines { ms with sessionStates :=
        Function.update ms.sessionStates (sessionStateKey a b) (some x) }
      { st with states := Function.update st.states (a, b) (some x) } := by
  refine ⟨hR.privateKeys, hR.publicKeys, fun a' b' ha' hb' => ?_, hR.sessions,
    hR.senderSessionPubHash, hR.separate⟩
  by_cases ht : (a', b') = (a, b)
  · simp only [Prod.mk.injEq] at ht
    obtain ⟨rfl, rfl⟩ := ht
    simp
  · have hk : sessionStateKey a' b' ≠ sessionStateKey a b := fun hk => ht (by
      obtain ⟨rfl, rfl⟩ := sessionStateKey_inj ha' hb' ha hb hk; rfl)
    simp only [Function.update_noteq hk, Function.update_noteq ht]
    exact hR.states a' b' ha' hb'

theorem getMessageKey_refines (h : Bytes) (sender : Bool) (i : UInt64) :
    ms.getMessageKey a b h sender i = st.getMessageKey a b h sender i := by
  rcases hR.session_cases ha hb h with ⟨hs, hsk⟩ | ⟨s, sk, hs, hsk, hv⟩
  · simp [MemStore.getMessageKey, MemStore.lookupSession, Store.getMessageKey, hs, hsk]
  · simp only [MemStore.getMessageKey, MemStore.lookupSession, hs, Store.getMessageKey, hsk,
      Outcome.ok_bind, MemSession.len_send hv]
    by_cases hi : i.toNat < sk.send.length
    · rw [if_neg (by omega), dif_pos hi, Slice.get_of_lt (by rw [MemSession.len_side hv]; exact hi),
        Outcome.ok_bind, MemSession.heap_cell_side hv sender hi]
      exact (decodeMessageKey_encodeSlot ..).trans (by cases sk.key sender i.toNat hi <;> rfl)
    · rw [if_pos (by omega), dif_neg hi]

theorem delMessageKey_refines (h : Bytes) (sender : Bool) (i : UInt64) :
    (ms.delMessageKey a b h sender i).2 = (st.delMessageKey a b h sender i).2 ∧
      Refines (ms.delMessageKey a b h sender i).1 (st.delMessageKey a b h sender i).1 := by
  rcases hR.session_cases ha hb h with ⟨hs, hsk⟩ | ⟨s, sk, hs, hsk, hv⟩
  · simp only [MemStore.delMessageKey, Store.delMessageKey, hs, hsk, true_and]
    exact hR
  · by_cases hi : i.toNat < sk.send.length
    · have hside : i.toNat < (s.side sender).len := by rw [MemSession.len_side hv]; exact hi
      simp only [MemStore.delMessageKey, hs, Store.delMessageKey, hsk, if_pos hi,
        if_neg (show ¬ s.send.len ≤ i.toNat by rw [MemSession.len_send hv]; omega),
        Slice.set_of_lt hside, true_and]
      exact hR.delete ha hb hs hv hside
    · simp only [MemStore.delMessageKey, hs, Store.delMessageKey, hsk, if_neg hi,
        if_pos (show s.send.len ≤ i.toNat by rw [MemSession.len_send hv]; omega), true_and]
      exact hR

theorem storeSession_refines (isMapped : Bytes → Option Bytes) (h : Bytes) (rk : Key64)
    (ck : Bytes) (sendKeys recvKeys : List Key64) {send recv : Slice}
    (hkeys : send.read ms.heap = sendKeys.map encodeKey ∧ recv.read ms.heap = recvKeys.map encodeKey)
    (hfresh : (Op.storeSession a b h (encodeKey rk) ck send recv).FreshIn ms) :
    (ms.storeSession isMapped a b h (encodeKey rk) ck send recv).2 =
        (st.storeSession isMapped a b h rk ck sendKeys recvKeys).2 ∧
      Refines (ms.storeSession isMapped a b h (encodeKey rk) ck send recv).1
        (st.storeSession isMapped a b h rk ck sendKeys recvKeys).1 := by
  have hl1 : send.len = sendKeys.length := by
    rw [← Slice.length_read send ms.heap, hkeys.1, List.length_map]
  have hl2 : recv.len = recvKeys.length := by
    rw [← Slice.length_read recv ms.heap, hkeys.2, List.length_map]
  rw [MemStore.storeSession, Store.storeSession]
  cases isMapped a <;> cases isMapped b
  all_goals try exact ⟨rfl, hR⟩
  by_cases hl : sendKeys.length = recvKeys.length
  · rw [if_neg (by omega), dif_pos hl]
    refine ⟨rfl, hR.store ha hb ?_ (List.pairwise_pair.mp hfresh.1) hfresh.2⟩
    simp only [MemSession.view, SessionKeys.encode, hkeys.1, hkeys.2, List.map_map]
    rfl
  · rw [if_pos (by omega), dif_neg hl]
    exact ⟨rfl, hR⟩

end Relate

/-! ## Calls and runs -/

variable (isMapped : Bytes → Option Bytes)

/-- **Step refinement**: a call whose identities hold one `@` each and whose session state
is not nil, made with slices that hold its keys and share no place with each other or
with a kept slice, from related stores, returns what the abstract call returns and leaves
related stores. -/
theorem step_refines {ms : MemStore} {st : Store} (hR : Refines ms st) (c : Call)
    (hc : c.Valid) {send recv : Slice} (hkeys : c.KeysIn ms.heap send recv)
    (hfresh : (c.toOp send recv).FreshIn ms) :
    (step isMapped ms (c.toOp send recv)).2 = (st.step isMapped c).2 ∧
      Refines (step isMapped ms (c.toOp send recv)).1 (st.step isMapped c).1 := by
  cases c with
  | addPrivateKeyEntry ke =>
    refine ⟨rfl, { hR with privateKeys := ?_ }⟩
    simp [Call.toOp, step, Store.step, MemStore.addPrivateKeyEntry, hR.privateKeys]
  | addPublicKeyEntry identity ke =>
    refine ⟨rfl, { hR with publicKeys := ?_ }⟩
    simp [Call.toOp, step, Store.step, MemStore.addPublicKeyEntry, hR.publicKeys]
  | getSessionState a b =>
    exact ⟨by simp [Call.toOp, step, Store.step, MemStore.getSessionState,
      hR.states a b hc.1 hc.2], hR⟩
  | setSessionState a b x =>
    obtain ⟨ha, hb, hx⟩ := hc
    obtain ⟨x, rfl⟩ := Option.isSome_iff_exists.mp hx
    exact ⟨rfl, hR.setState ha hb x⟩
  | storeSession a b h rk ck sendKeys recvKeys =>
    obtain ⟨h1, h2⟩ := storeSession_refines hR hc.1 hc.2 isMapped h rk ck sendKeys recvKeys hkeys hfresh
    exact ⟨by simp only [step, Store.step, Call.toOp, h1], h2⟩
  | hasSession a b h =>
    refine ⟨?_, hR⟩
    rcases hR.session_cases hc.1 hc.2 h with ⟨hs, hsk⟩ | ⟨s, sk, hs, hsk, -⟩ <;>
      simp [Call.toOp, step, Store.step, MemStore.hasSession, hs, hsk]
  | getPrivateKeyEntry k =>
    refine ⟨?_, hR⟩
    simp only [step, Store.step, Call.toOp, MemStore.getPrivateKeyEntry, hR.privateKeys]
    cases st.privateKeyEntries k <;> rfl
  | getPublicKeyEntry identity =>
    refine ⟨?_, hR⟩
    simp only [step, Store.step, Call.toOp, MemStore.getPublicKeyEntry, hR.publicKeys]
    cases st.publicKeyEntries identity <;> rfl
  | numMessageKeys a b h =>
    refine ⟨?_, hR⟩
    rcases hR.session_cases hc.1 hc.2 h with ⟨hs, hsk⟩ | ⟨s, sk, hs, hsk, hv⟩
    · simp [Call.toOp, step, Store.step, MemStore.numMessageKeys, MemStore.lookupSession,
        Store.withSession, hs, hsk]
    · simp [Call.toOp, step, Store.step, MemStore.numMessageKeys, MemStore.lookupSession,
        Store.withSession, hs, hsk, MemSession.len_send hv]
  | getMessageKey a b h sender i =>
    exact ⟨by simp only [step, Store.step, Call.toOp, getMessageKey_refines hR hc.1 hc.2], hR⟩
  | getRootKeyHash a b h =>
    refine ⟨?_, hR⟩
    rcases hR.session_cases hc.1 hc.2 h with ⟨hs, hsk⟩ | ⟨s, sk, hs, hsk, hv⟩
    · simp [Call.toOp, step, Store.step, MemStore.getRootKeyHash, MemStore.lookupSession,
        Store.withSession, hs, hsk]
    · simp [Call.toOp, step, Store.step, MemStore.getRootKeyHash, MemStore.lookupSession,
        Store.withSession, hs, hsk, (MemSession.view_eq_encode.mp hv).1, decode_encodeKey,
        copyKey64_val]
  | delMessageKey a b h sender i =>
    obtain ⟨h1, h2⟩ := delMessageKey_refines hR hc.1 hc.2 h sender i
    exact ⟨by simp only [step, Store.step, Call.toOp, h1], h2⟩
  | senderSessionPubHash =>
    exact ⟨by simp [step, Store.step, Call.toOp, hR.senderSessionPubHash], hR⟩

/-! ## Runs whose slices share nothing -/

/-- The slices the store keeps are among `W`. -/
def WindowsIn (ms : MemStore) (W : List Slice) : Prop :=
  ∀ idx s, ms.sessions idx = some s → ∀ x ∈ s.slices, x ∈ W

/-- The store's heap holds what `heap` holds at every place no slice of `W` holds. -/
def HeapFrame (heap : Heap) (ms : MemStore) (W : List Slice) : Prop :=
  ∀ c, (∀ x ∈ W, ¬ x.Holds c) → ms.heap c = heap c

/-- **Step**: a call keeps only slices kept before or passed to it. -/
theorem windowsIn_step {ms : MemStore} {W : List Slice} (hW : WindowsIn ms W) (op : Op) :
    WindowsIn (step isMapped ms op).1 (W ++ op.slices) := by
  intro idx s hs x hx
  rcases sessions_step isMapped ms op idx with h | ⟨_, _, _, _, _, _, _, rfl, -, -, h⟩
  · exact List.mem_append_left _ (hW idx s (h ▸ hs) x hx)
  · obtain rfl := Option.some.inj (hs.symm.trans h)
    exact List.mem_append_right _ hx

/-- **Step**: a call writes the heap only at places of slices the store keeps. -/
theorem heapFrame_step {heap : Heap} {ms : MemStore} {W : List Slice} (hW : WindowsIn ms W)
    (hF : HeapFrame heap ms W) (op : Op) : HeapFrame heap (step isMapped ms op).1 (W ++ op.slices) := by
  intro c hc
  rcases heap_step isMapped ms op c with h | ⟨idx, s, sender, i, hs, hi, rfl, -⟩
  · rw [h]
    exact hF c fun x hx => hc x (List.mem_append_left _ hx)
  · exact absurd ((s.side sender).holds_cell hi)
      (hc _ (List.mem_append_left _ (hW idx s hs _ (s.side_mem_slices sender))))

/-- Slices apart from each other and from those among which the kept ones are, are fresh. -/
theorem freshIn_of_pairwise {ms : MemStore} {W : List Slice} (hW : WindowsIn ms W) {op : Op}
    (hp : (W ++ op.slices).Pairwise Slice.Disjoint) : op.FreshIn ms := by
  rw [List.pairwise_append] at hp
  exact ⟨hp.2.1, fun x hx idx s hs y hy => (hp.2.2 y (hW idx s hs y hy) x hx).symm⟩

/-- A call's slices apart from every slice of `W` read as the caller filled them. -/
theorem keysIn_of_heapFrame {heap : Heap} {ms : MemStore} {W : List Slice}
    (hF : HeapFrame heap ms W) {c : Call} {send recv : Slice}
    (hp : ∀ x ∈ W, ∀ y ∈ (c.toOp send recv).slices, x.Disjoint y) (hk : c.KeysIn heap send recv) :
    c.KeysIn ms.heap send recv := by
  cases c with
  | storeSession a b h rk ck sendKeys recvKeys =>
    have hr : ∀ t ∈ [send, recv], t.read ms.heap = t.read heap := fun t ht =>
      Slice.read_congr fun c hc => hF c fun x hx => (hp x hx t ht).symm.not_holds hc
    exact ⟨(hr send (by simp)).trans hk.1, (hr recv (by simp)).trans hk.2⟩
  | _ => trivial

@[simp] theorem Store.run_cons (st : Store) (c : Call) (calls : List Call) :
    Store.run isMapped st (c :: calls) = Store.run isMapped (st.step isMapped c).1 calls := rfl

/-- **Run refinement**: from related stores, along calls made in a heap that holds their
keys, with slices that share no place with each other or with `W`, among which are the
slices kept, the stores stay related, and the kept slices stay among those seen. -/
theorem run_refines {heap : Heap} {ms : MemStore} {st : Store} {W : List Slice}
    (hR : Refines ms st) (hW : WindowsIn ms W) (hF : HeapFrame heap ms W) {calls : List Call}
    {ops : List Op} (hren : List.Forall₂ (Call.Renders heap) calls ops) (hv : ∀ c ∈ calls, c.Valid)
    (hun : (W ++ ops.flatMap Op.slices).Pairwise Slice.Disjoint) :
    Refines (run isMapped ms ops) (Store.run isMapped st calls) ∧
      WindowsIn (run isMapped ms ops) (W ++ ops.flatMap Op.slices) ∧
      HeapFrame heap (run isMapped ms ops) (W ++ ops.flatMap Op.slices) := by
  induction hren generalizing ms st W with
  | nil => simpa using ⟨hR, hW, hF⟩
  | @cons c op calls ops hc _ ih =>
    obtain ⟨send, recv, rfl, hk⟩ := hc
    have hun' : ((W ++ (c.toOp send recv).slices) ++ ops.flatMap Op.slices).Pairwise
        Slice.Disjoint := by simpa [List.append_assoc] using hun
    have hp := (List.pairwise_append.mp hun').1
    obtain ⟨-, h2⟩ := step_refines isMapped hR c (hv c (List.mem_cons_self _ _))
      (keysIn_of_heapFrame hF (List.pairwise_append.mp hp).2.2 hk) (freshIn_of_pairwise hW hp)
    simpa [List.append_assoc] using ih h2 (windowsIn_step isMapped hW _)
      (heapFrame_step isMapped hW hF _) (fun c' hc' => hv c' (List.mem_cons_of_mem _ hc')) hun'

end Mute.Memstore
