import Mathlib.Data.List.Basic
import Mathlib.Data.Nat.ModEq

/-!
# A bounded queue with one producer and one consumer

An `SPSCQueue` has `2 ^ k` slots and two counters of 64 bits, which wrap around.
It is a list of at most `2 ^ k` elements (`contents`): `push` appends to it,
unless it is full (`push_of_lt`, `push_of_full`), and `pop` takes its head
(`pop_of_nil`, `pop_of_cons`).

A burst of elements is pushed while the consumer pops at its own pace. The
elements that matter are all queued, however slow the consumer is, if and only if
they `Fits` in a queue that is not popped at all.
-/

namespace Yuviz

variable {α : Type*} {k : ℕ}

structure SPSCQueue (α : Type*) (k : ℕ) where
  buf : Vector α (2 ^ k)
  head : BitVec 64
  tail : BitVec 64
  size_le : (tail - head).toNat ≤ 2 ^ k

namespace SPSCQueue

/-- The slot of a counter. -/
def slot (k : ℕ) (c : BitVec 64) : Fin (2 ^ k) :=
  ⟨c.toNat &&& (2 ^ k - 1),
    lt_of_le_of_lt Nat.and_le_right (Nat.sub_one_lt (Nat.two_pow_pos k).ne')⟩

def empty [Inhabited α] : SPSCQueue α k where
  buf := Vector.replicate _ default
  head := 0
  tail := 0
  size_le := Nat.zero_le _

def size (q : SPSCQueue α k) : ℕ := (q.tail - q.head).toNat

theorem toNat_succ_sub_le (t h : BitVec 64) : (t + 1 - h).toNat ≤ (t - h).toNat + 1 := by
  bv_omega

theorem toNat_sub_succ {t h : BitVec 64} (hne : t ≠ h) :
    (t - (h + 1)).toNat + 1 = (t - h).toNat := by
  bv_omega

/-- The producer. -/
def push (x : α) (q : SPSCQueue α k) : Bool × SPSCQueue α k :=
  if h : (q.tail - q.head).toNat ≥ 2 ^ k then (false, q)
  else
    (true, { q with
      buf := q.buf.set (slot k q.tail) x
      tail := q.tail + 1
      size_le := (toNat_succ_sub_le _ _).trans (not_le.1 h) })

/-- The consumer. -/
def pop (q : SPSCQueue α k) : Option (α × SPSCQueue α k) :=
  if h : q.tail = q.head then none
  else
    some (q.buf[slot k q.head], { q with
      head := q.head + 1
      size_le := Nat.le_of_succ_le ((toNat_sub_succ h).trans_le q.size_le) })

/-! ## The queue as a list -/

/-- The element at a counter. -/
def get (q : SPSCQueue α k) (c : BitVec 64) : α := q.buf[slot k c]

/-- The elements of the queue, the oldest first. -/
def contents (q : SPSCQueue α k) : List α :=
  (List.range q.size).map fun i => q.get (q.head + BitVec.ofNat 64 i)

variable {q : SPSCQueue α k} {x : α}

@[simp] theorem length_contents : q.contents.length = q.size := by
  simp [contents]

@[simp] theorem size_empty [Inhabited α] : (empty : SPSCQueue α k).size = 0 := by
  simp [size, empty]

@[simp] theorem contents_empty [Inhabited α] : (empty : SPSCQueue α k).contents = [] := by
  simp [contents]

/-- The slots of a full queue differ. -/
theorem slot_ne {c : BitVec 64} {i j : ℕ} (hk : k ≤ 64) (hij : i < j) (hj : j < 2 ^ k) :
    slot k (c + BitVec.ofNat 64 i) ≠ slot k (c + BitVec.ofNat 64 j) := by
  intro h
  have hdvd : 2 ^ k ∣ 2 ^ 64 := Nat.pow_dvd_pow 2 hk
  have hmod (n : ℕ) : (slot k (c + BitVec.ofNat 64 n)).val = (c.toNat + n) % 2 ^ k := by
    show (c + BitVec.ofNat 64 n).toNat &&& (2 ^ k - 1) = _
    rw [Nat.and_two_pow_sub_one_eq_mod, BitVec.toNat_add, Nat.mod_mod_of_dvd _ hdvd,
      BitVec.toNat_ofNat, Nat.add_mod, Nat.mod_mod_of_dvd _ hdvd, ← Nat.add_mod]
  have heq : c.toNat + i ≡ c.toNat + j [MOD 2 ^ k] := by
    rw [Nat.ModEq, ← hmod, ← hmod, h]
  have hlt : i % 2 ^ k = j % 2 ^ k := Nat.ModEq.add_left_cancel' _ heq
  rw [Nat.mod_eq_of_lt (hij.trans hj), Nat.mod_eq_of_lt hj] at hlt
  exact hij.ne hlt

theorem head_add_size : q.head + BitVec.ofNat 64 q.size = q.tail := by
  rw [size, BitVec.ofNat_toNat, BitVec.setWidth_eq, BitVec.add_comm, BitVec.sub_add_cancel]

theorem push_of_full (h : 2 ^ k ≤ q.size) : q.push x = (false, q) := dif_pos h

theorem push_of_not_full (h : q.size < 2 ^ k) : ∃ hle, q.push x =
    (true, { q with buf := q.buf.set (slot k q.tail) x, tail := q.tail + 1, size_le := hle }) :=
  ⟨_, dif_neg (not_le.2 h)⟩

/-- An element is appended to a queue that is not full. -/
theorem push_of_lt (hk : k < 64) (h : q.size < 2 ^ k) :
    (q.push x).1 = true ∧ (q.push x).2.contents = q.contents ++ [x] := by
  obtain ⟨hle, hpush⟩ := push_of_not_full (x := x) h
  have hlt : q.size + 1 < 2 ^ 64 := lt_of_le_of_lt h (Nat.pow_lt_pow_right (by decide) hk)
  have hsize : (q.tail + 1 - q.head).toNat = q.size + 1 := by
    have hs : (q.tail - q.head).toNat + 1 < 2 ^ 64 := hlt
    show _ = (q.tail - q.head).toNat + 1
    bv_omega
  rw [hpush]
  refine ⟨rfl, ?_⟩
  simp only [contents]
  rw [size, hsize, List.range_succ, List.map_append]
  congr 1
  · -- the other elements are in other slots
    refine List.map_congr_left fun i hi => ?_
    have hne : slot k (q.head + BitVec.ofNat 64 i) ≠ slot k q.tail := by
      rw [← head_add_size]
      exact slot_ne hk.le (List.mem_range.1 hi) h
    exact Vector.getElem_set_ne (slot k q.tail).isLt _ fun heq => hne (Fin.ext heq.symm)
  · rw [List.map_singleton, head_add_size]
    exact congrArg (fun y => [y]) (Vector.getElem_set_self _)

theorem pop_of_nil (h : q.contents = []) : q.pop = none := by
  have hsize : (q.tail - q.head).toNat = 0 := by
    rw [← size, ← length_contents, h, List.length_nil]
  exact dif_pos (by bv_omega)

/-- The oldest element is taken out. -/
theorem pop_of_cons {xs : List α} (h : q.contents = x :: xs) :
    ∃ q', q.pop = some (x, q') ∧ q'.contents = xs := by
  have hsize : (q.tail - q.head).toNat = xs.length + 1 := by
    rw [← size, ← length_contents, h, List.length_cons]
  have hne : q.tail ≠ q.head := by
    rintro hth
    rw [hth, BitVec.sub_self] at hsize
    cases hsize
  have hrest : (q.tail - (q.head + 1)).toNat = xs.length :=
    Nat.succ.inj ((toNat_sub_succ hne).trans hsize)
  rw [contents, size, hsize, List.range_succ_eq_map, List.map_cons, List.map_map] at h
  obtain ⟨hx, hxs⟩ := List.cons.inj h
  rw [pop, dif_neg hne]
  refine ⟨_, congrArg some (Prod.ext ?_ rfl), ?_⟩
  · rw [← hx, BitVec.add_zero]
    rfl
  · rw [contents, size, hrest]
    refine Eq.trans (List.map_congr_left fun i _ => ?_) hxs
    have hsucc : q.head + 1 + BitVec.ofNat 64 i = q.head + BitVec.ofNat 64 (i + 1) := by
      bv_omega
    show q.get (q.head + 1 + BitVec.ofNat 64 i) = _
    rw [hsucc]
    rfl

end SPSCQueue

/-! ## Bursts -/

section

variable {p : α → Prop} {capacity n m : ℕ} {xs ys : List α}

/-- The elements `xs` with `p` find room in a queue of `n` elements that is not popped. -/
def Fits (p : α → Prop) (capacity : ℕ) : ℕ → List α → Prop
  | _, [] => True
  | n, x :: xs => (p x → n < capacity) ∧ Fits p capacity (n + 1) xs

theorem Fits.mono (h : Fits p capacity n xs) (hmn : m ≤ n) : Fits p capacity m xs := by
  induction xs generalizing m n with
  | nil => trivial
  | cons x xs ih => exact ⟨fun hx => lt_of_le_of_lt hmn (h.1 hx), ih h.2 (Nat.succ_le_succ hmn)⟩

theorem fits_append :
    Fits p capacity n (xs ++ ys) ↔ Fits p capacity n xs ∧ Fits p capacity (n + xs.length) ys := by
  induction xs generalizing n with
  | nil => simp [Fits]
  | cons x xs ih =>
    rw [List.cons_append, Fits, Fits, ih, List.length_cons, Nat.succ_add_eq_add_succ, and_assoc]

theorem fits_of_forall_not (h : ∀ x ∈ xs, ¬p x) : Fits p capacity n xs := by
  induction xs generalizing n with
  | nil => trivial
  | cons x xs ih =>
    obtain ⟨hx, hxs⟩ := List.forall_mem_cons.1 h
    exact ⟨fun hp => absurd hp hx, ih hxs⟩

/-- Of a burst of elements with `p` the last one counts. -/
theorem fits_iff_of_forall (h : ∀ x ∈ xs, p x) :
    Fits p capacity n xs ↔ xs = [] ∨ n + (xs.length - 1) < capacity := by
  induction xs generalizing n with
  | nil => simp [Fits]
  | cons x xs ih =>
    obtain ⟨hx, hxs⟩ := List.forall_mem_cons.1 h
    rw [Fits, ih hxs]
    cases xs with
    | nil => simp [hx]
    | cons y ys =>
      simp only [hx, forall_true_left, reduceCtorEq, false_or, List.length_cons]
      omega

end

end Yuviz
