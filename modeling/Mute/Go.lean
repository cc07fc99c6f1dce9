import Mathlib.Logic.Function.Basic
import Mathlib.Data.List.Basic
import Mathlib.Algebra.Group.Nat.Basic

/-!
# Go values and calls

The shallow embedding every other module is translated into:

- `Bytes`: a Go `string` or `[]byte`. Go strings are byte sequences that need not be
  valid UTF-8, so they are lists of bytes, not Lean `String`s; `lit` gives the bytes of
  a string literal of the source.
- `Outcome ε α`: what a Go call ends in: its results, a returned `error`, or a run-time
  panic with the panic's message. `Outcome ε` is a monad, so a body that returns early on
  `err != nil` is a `do` block.
- `index`, `sliceTo`: `xs[i]` and `xs[:n]` of a slice read as a value, which panic out of
  range; `readFull`: `io.ReadFull` on a reader that yields the bytes of a list and then
  `io.EOF`.
- `Heap`, `Slice`: a `[]string` that is shared once it is stored, as a window of a backing
  array in the program's memory; `Slice.get` and `Slice.set` are `s[i]` and `s[i] = v`,
  and two slices see each other's writes unless they are `Disjoint`.
-/

namespace Mute

/-- A Go `string` or `[]byte`. -/
abbrev Bytes := List UInt8

/-- The bytes of a Go string literal (UTF-8, as Go source files are). -/
def lit (s : String) : Bytes := s.toList.flatMap String.utf8EncodeChar

/-- The outcome of a Go call: its results, a returned error, or a run-time panic. -/
inductive Outcome (ε α : Type) where
  | ok (a : α)
  | err (e : ε)
  | panic (msg : String)
  deriving Repr, DecidableEq

namespace Outcome

variable {ε α β : Type}

/-- Sequencing: an error or a panic ends the call. -/
def bind : Outcome ε α → (α → Outcome ε β) → Outcome ε β
  | ok a, f => f a
  | err e, _ => err e
  | panic m, _ => panic m

instance : Monad (Outcome ε) where
  pure := ok
  bind := bind

@[simp] theorem pure_eq (a : α) : (pure a : Outcome ε α) = ok a := rfl

@[simp] theorem ok_bind (a : α) (f : α → Outcome ε β) : (ok a >>= f) = f a := rfl

@[simp] theorem err_bind (e : ε) (f : α → Outcome ε β) : (err e >>= f) = err e := rfl

@[simp] theorem panic_bind (m : String) (f : α → Outcome ε β) :
    (panic m >>= f : Outcome ε β) = panic m := rfl

@[simp] theorem map_ok (f : α → β) (a : α) : (f <$> ok a : Outcome ε β) = ok (f a) := rfl

@[simp] theorem map_err (f : α → β) (e : ε) : (f <$> err e : Outcome ε β) = err e := rfl

@[simp] theorem map_panic (f : α → β) (m : String) : (f <$> panic m : Outcome ε β) = panic m :=
  rfl

/-- A call that ends in a result ran every step of its body to a result. -/
theorem bind_eq_ok {x : Outcome ε α} {f : α → Outcome ε β} {b : β} :
    (x >>= f) = ok b ↔ ∃ a, x = ok a ∧ f a = ok b := by
  cases x <;> simp

theorem map_eq_ok {x : Outcome ε α} {f : α → β} {b : β} :
    (f <$> x) = ok b ↔ ∃ a, x = ok a ∧ f a = b := by
  cases x <;> simp

/-- The call panicked. -/
def isPanic : Outcome ε α → Bool
  | panic _ => true
  | _ => false

@[simp] theorem isPanic_ok (a : α) : (ok a : Outcome ε α).isPanic = false := rfl

@[simp] theorem isPanic_err (e : ε) : (err e : Outcome ε α).isPanic = false := rfl

@[simp] theorem isPanic_panic (m : String) : (panic m : Outcome ε α).isPanic = true := rfl

@[simp] theorem isPanic_map (f : α → β) (x : Outcome ε α) : (f <$> x).isPanic = x.isPanic := by
  cases x <;> rfl

/-- A sequence panics only where one of its steps does. -/
theorem isPanic_bind {x : Outcome ε α} {f : α → Outcome ε β} :
    (x >>= f).isPanic = false ↔ x.isPanic = false ∧ ∀ a, x = ok a → (f a).isPanic = false := by
  cases x <;> simp

end Outcome

section Slices

variable {ε α : Type}

/-- Go's message for an index out of range. -/
def indexPanic (i n : Nat) : String :=
  "runtime error: index out of range [" ++ toString i ++ "] with length " ++ toString n

/-- The panic of a method that dereferences a nil pointer. -/
def nilDereference : String := "runtime error: invalid memory address or nil pointer dereference"

/-- `xs[i]`. -/
def index (xs : List α) (i : Nat) : Outcome ε α :=
  if h : i < xs.length then .ok xs[i] else .panic (indexPanic i xs.length)

/-- `xs[:n]`. -/
def sliceTo (xs : List α) (n : Nat) : Outcome ε (List α) :=
  if n ≤ xs.length then .ok (xs.take n)
  else .panic ("runtime error: slice bounds out of range [:" ++ toString n ++
    "] with capacity " ++ toString xs.length)

theorem sliceTo_of_le {xs : List α} {n : Nat} (h : n ≤ xs.length) :
    (sliceTo xs n : Outcome ε (List α)) = .ok (xs.take n) := if_pos h

theorem index_eq_ok {xs : List α} {i : Nat} {a : α} :
    (index xs i : Outcome ε α) = .ok a ↔ xs[i]? = some a := by
  unfold index; split <;> simp_all [List.getElem?_eq_none]

theorem sliceTo_eq_ok {xs ys : List α} {n : Nat} :
    (sliceTo xs n : Outcome ε (List α)) = .ok ys ↔ n ≤ xs.length ∧ xs.take n = ys := by
  unfold sliceTo; split <;> simp_all

/-- Indexing panics exactly out of range. -/
@[simp] theorem isPanic_index (xs : List α) (i : Nat) :
    (index xs i : Outcome ε α).isPanic = decide (xs.length ≤ i) := by
  unfold index; split <;> simp <;> omega

end Slices

/-! ## Slices that share memory -/

/-- The strings of the program's backing arrays: string `j` of array `a` is `heap (a, j)`. -/
def Heap := Nat × Nat → Bytes

/-- A `[]string`: the `len` strings of the backing array `arr` from index `off`. Passing or
storing a slice copies this header, and the copies share the strings. -/
structure Slice where
  arr : Nat
  off : Nat
  len : Nat
  deriving DecidableEq, Repr

namespace Slice

variable {ε : Type}

/-- The place of element `i`. -/
def cell (s : Slice) (i : Nat) : Nat × Nat := (s.arr, s.off + i)

/-- `s[i]`. -/
def get (s : Slice) (heap : Heap) (i : Nat) : Outcome ε Bytes :=
  if i < s.len then .ok (heap (s.cell i)) else .panic (indexPanic i s.len)

/-- `s[i] = v`: the heap after the write. -/
def set (s : Slice) (heap : Heap) (i : Nat) (v : Bytes) : Outcome ε Heap :=
  if i < s.len then .ok (Function.update heap (s.cell i) v) else .panic (indexPanic i s.len)

/-- The strings of the slice. -/
def read (s : Slice) (heap : Heap) : List Bytes := (List.range s.len).map fun i => heap (s.cell i)

/-- The place `c` is an element of the slice. -/
def Holds (s : Slice) (c : Nat × Nat) : Prop := c.1 = s.arr ∧ s.off ≤ c.2 ∧ c.2 < s.off + s.len

/-- The two slices share no place. -/
def Disjoint (s t : Slice) : Prop :=
  s.arr ≠ t.arr ∨ s.len = 0 ∨ t.len = 0 ∨ s.off + s.len ≤ t.off ∨ t.off + t.len ≤ s.off

instance : DecidableRel Disjoint := fun s t =>
  inferInstanceAs (Decidable (s.arr ≠ t.arr ∨ s.len = 0 ∨ t.len = 0 ∨ s.off + s.len ≤ t.off ∨
    t.off + t.len ≤ s.off))

theorem get_of_lt {s : Slice} {heap : Heap} {i : Nat} (h : i < s.len) :
    (s.get heap i : Outcome ε Bytes) = .ok (heap (s.cell i)) := if_pos h

theorem set_of_lt {s : Slice} {heap : Heap} {i : Nat} {v : Bytes} (h : i < s.len) :
    (s.set heap i v : Outcome ε Heap) = .ok (Function.update heap (s.cell i) v) := if_pos h

@[simp] theorem isPanic_get (s : Slice) (heap : Heap) (i : Nat) :
    (s.get heap i : Outcome ε Bytes).isPanic = decide (s.len ≤ i) := by
  unfold get; split <;> simp <;> omega

@[simp] theorem isPanic_set (s : Slice) (heap : Heap) (i : Nat) (v : Bytes) :
    (s.set heap i v : Outcome ε Heap).isPanic = decide (s.len ≤ i) := by
  unfold set; split <;> simp <;> omega

@[simp] theorem length_read (s : Slice) (heap : Heap) : (s.read heap).length = s.len := by
  simp [read]

@[simp] theorem getElem_read (s : Slice) (heap : Heap) {i : Nat} (h : i < (s.read heap).length) :
    (s.read heap)[i] = heap (s.cell i) := by
  simp [read]

theorem holds_cell (s : Slice) {i : Nat} (h : i < s.len) : s.Holds (s.cell i) :=
  ⟨rfl, Nat.le_add_right _ _, by simp only [cell]; omega⟩

/-- A slice reads the same in two heaps that agree on its places. -/
theorem read_congr {s : Slice} {heap heap' : Heap} (h : ∀ c, s.Holds c → heap c = heap' c) :
    s.read heap = s.read heap' :=
  List.map_congr_left fun _ hi => h _ (s.holds_cell (List.mem_range.mp hi))

theorem Disjoint.symm {s t : Slice} (h : s.Disjoint t) : t.Disjoint s := by
  unfold Disjoint at *; omega

/-- A place of one of two disjoint slices is not a place of the other. -/
theorem Disjoint.not_holds {s t : Slice} (h : s.Disjoint t) {c : Nat × Nat} (hs : s.Holds c) :
    ¬ t.Holds c := by
  obtain ⟨c1, c2⟩ := c
  unfold Disjoint Holds at *
  simp only at hs ⊢
  omega

end Slice

/-- `io.ReadFull(r, buf)` with `len(buf) = n`, on a reader that yields the bytes `r` and
then `io.EOF`: the bytes read and the reader's rest, or the error, `io.EOF` when nothing
was read and `io.ErrUnexpectedEOF` when some was. -/
def readFull (r : Bytes) (n : Nat) : Except String (Bytes × Bytes) :=
  if n ≤ r.length then .ok (r.take n, r.drop n)
  else if r = [] then .error "EOF" else .error "unexpected EOF"

theorem readFull_of_le {r : Bytes} {n : Nat} (h : n ≤ r.length) :
    readFull r n = .ok (r.take n, r.drop n) := if_pos h

theorem readFull_of_lt {r : Bytes} {n : Nat} (h : r.length < n) : ∃ e, readFull r n = .error e := by
  unfold readFull; rw [if_neg (by omega)]; split <;> exact ⟨_, rfl⟩

end Mute
