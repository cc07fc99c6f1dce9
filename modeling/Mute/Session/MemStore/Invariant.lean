import Mute.Session.MemStore.Store

/-!
# Every stored session has aligned key lists

`StoreSession` refuses slices of different lengths, and no other call writes a session
(`DelMessageKey` writes the heap through a slice, not the slice), so every session the
store holds has as many recipient keys as sender keys (`Aligned`), after every sequence
of calls with any arguments (`aligned_run`). `GetMessageKey` and `DelMessageKey` check an
index against the sender slice alone, also when they go on to the recipient slice; by
the invariant that check is enough, and neither method ever indexes out of range
(`memStore_keys_in_range`).

The other panics of the store are the nil pointers it reads through (`Op.derefsNil`): in
a reachable store a call panics exactly when it hands one of them nil (`isPanic_step`, and
over every run **`memStore_panics_only_nil`**).
-/

namespace Mute.Memstore

open Session

/-- Every session in the store has as many recipient keys as sender keys. -/
def Aligned (ms : MemStore) : Prop :=
  ∀ idx s, ms.sessions idx = some s → s.send.len = s.recv.len

variable (isMapped : Bytes → Option Bytes)

theorem aligned_new (heap : Heap) : Aligned (MemStore.new heap) := by
  intro idx s h; cases h

/-- **Step**: every call keeps the key lists of every session aligned. -/
theorem aligned_step {ms : MemStore} (h : Aligned ms) (op : Op) :
    Aligned (step isMapped ms op).1 := by
  intro idx s' hs'
  rcases sessions_step isMapped ms op idx with hs | ⟨_, _, _, _, _, _, _, -, -, hlen, hs⟩
  · exact h idx s' (hs ▸ hs')
  · obtain rfl := Option.some.inj (hs'.symm.trans hs)
    exact hlen

theorem aligned_run {ms : MemStore} (h : Aligned ms) (ops : List Op) :
    Aligned (run isMapped ms ops) := by
  induction ops generalizing ms with
  | nil => exact h
  | cons op ops ih => exact ih (aligned_step isMapped h op)

/-! ## No index out of range -/

/-- Below the length of the sender slice, a session's slice for either party has the
element. -/
theorem lt_len_side {ms : MemStore} (h : Aligned ms) {idx : Bytes} {s : MemSession}
    (hs : ms.sessions idx = some s) (sender : Bool) {i : Nat} (hi : i < s.send.len) :
    i < (s.side sender).len := by
  cases sender
  · exact (h idx s hs) ▸ hi
  · exact hi

/-- In an aligned store `GetMessageKey` never panics: the bound it checks against the
sender slice holds for the recipient slice as well. -/
theorem isPanic_getMessageKey {ms : MemStore} (h : Aligned ms)
    (myID contactID hsh : Bytes) (sender : Bool) (i : UInt64) :
    (ms.getMessageKey myID contactID hsh sender i).isPanic = false := by
  unfold MemStore.getMessageKey
  refine Outcome.isPanic_bind.mpr ⟨MemStore.isPanic_lookupSession .., fun s hs => ?_⟩
  have hlt := lt_len_side h (MemStore.lookupSession_eq_ok.mp hs) sender (i := i.toNat)
  split
  · rfl
  · exact Outcome.isPanic_bind.mpr
      ⟨by simp only [Slice.isPanic_get, decide_eq_false_iff_not]; omega,
        fun key _ => isPanic_decodeMessageKey ..⟩

/-- In an aligned store `DelMessageKey` never panics. -/
theorem isPanic_delMessageKey {ms : MemStore} (h : Aligned ms)
    (myID contactID hsh : Bytes) (sender : Bool) (i : UInt64) :
    (ms.delMessageKey myID contactID hsh sender i).2.isPanic = false := by
  unfold MemStore.delMessageKey
  split
  · rfl
  · rename_i s hs
    split
    · rfl
    · have hi := lt_len_side h hs sender (i := i.toNat) (by omega)
      rw [Slice.set_of_lt hi]
      rfl

/-- **Aligned key lists**: from `New()` over any heap, after every sequence of calls with
any arguments, every stored session has as many recipient keys as sender keys, and neither
`GetMessageKey` nor `DelMessageKey`, for either party, indexes a slice out of range. -/
theorem memStore_keys_in_range (heap : Heap) (ops : List Op) :
    Aligned (run isMapped (MemStore.new heap) ops) ∧
      ∀ myID contactID hsh sender i,
        ((run isMapped (MemStore.new heap) ops).getMessageKey myID contactID hsh sender
          i).isPanic = false ∧
        ((run isMapped (MemStore.new heap) ops).delMessageKey myID contactID hsh sender
          i).2.isPanic = false := by
  have h := aligned_run isMapped (aligned_new heap) ops
  exact ⟨h, fun myID contactID hsh sender i =>
    ⟨isPanic_getMessageKey h .., isPanic_delMessageKey h ..⟩⟩

/-! ## Nil pointers -/

/-- The call hands nil to a method that reads through it: `AddPrivateKeyEntry` (`ke.HASH`),
`SetSessionState` (its debug log line) and `GetPublicKeyEntry` (`uidMsg.Identity()`). -/
def Op.derefsNil : Op → Bool
  | .addPrivateKeyEntry none | .setSessionState _ _ none | .getPublicKeyEntry none => true
  | _ => false

/-- In an aligned store a call panics exactly when it hands nil to a method that reads
through it. -/
theorem isPanic_step {ms : MemStore} (h : Aligned ms) (op : Op) :
    (step isMapped ms op).2.isPanic = op.derefsNil := by
  cases op with
  | addPrivateKeyEntry ke => cases ke <;> rfl
  | setSessionState myID contactID st => cases st <;> rfl
  | getPublicKeyEntry uidMsg =>
    cases uidMsg with
    | none => rfl
    | some identity =>
      simp only [step, MemStore.getPublicKeyEntry, Outcome.isPanic_map]
      split <;> rfl
  | storeSession myID contactID hsh rk ck send recv =>
    simp only [step, Outcome.isPanic_map, Op.derefsNil]
    rcases MemStore.storeSession_cases isMapped ms myID contactID hsh rk ck send recv with
      ⟨-, -⟩ | ⟨-, -, -, h2⟩
    · unfold MemStore.storeSession
      split <;> (try split) <;> rfl
    · rw [h2]; rfl
  | getMessageKey myID contactID hsh sender i =>
    simpa [step, Op.derefsNil] using isPanic_getMessageKey h myID contactID hsh sender i
  | delMessageKey myID contactID hsh sender i =>
    simpa [step, Op.derefsNil] using isPanic_delMessageKey h myID contactID hsh sender i
  | numMessageKeys myID contactID hsh =>
    simp only [step, MemStore.numMessageKeys, Outcome.isPanic_map, Op.derefsNil]
    exact Outcome.isPanic_bind.mpr ⟨MemStore.isPanic_lookupSession .., fun _ _ => rfl⟩
  | getRootKeyHash myID contactID hsh =>
    simp only [step, MemStore.getRootKeyHash, Outcome.isPanic_map, Op.derefsNil]
    exact Outcome.isPanic_bind.mpr ⟨MemStore.isPanic_lookupSession .., fun _ _ => by
      split <;> simp⟩
  | getPrivateKeyEntry k =>
    simp only [step, MemStore.getPrivateKeyEntry, Outcome.isPanic_map]; split <;> rfl
  | _ => rfl

/-- **The store panics only on nil pointers**: from `New()` over any heap, after every
sequence of calls, a call of any method with any arguments panics exactly when it hands
nil to `AddPrivateKeyEntry`, `SetSessionState` or `GetPublicKeyEntry`; every other call
returns a value or an error. -/
theorem memStore_panics_only_nil (heap : Heap) (ops : List Op) (op : Op) :
    (step isMapped (run isMapped (MemStore.new heap) ops) op).2.isPanic = op.derefsNil :=
  isPanic_step isMapped (aligned_run isMapped (aligned_new heap) ops) op

end Mute.Memstore
