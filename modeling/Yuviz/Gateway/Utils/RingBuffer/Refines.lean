import Yuviz.Gateway.Utils.RingBuffer

/-!
# The ring buffer is a bounded queue

The queue is what the buffer holds from the position `r` on, where `r` is how
many samples have been popped; the positions are `r` and `r + queue.length` in
64 bits. What a thread has copied, and not yet stored the position of, is in
its own part of the invariant (`Producer.Ok`, `Consumer.Ok`), which the other
thread keeps.
-/

namespace Yuviz.Gateway.RingBuffer

open Circular

variable {α : Type*} {k r : ℕ} {queue data buffer : List α} {s s' : RingBuffer α}

/-! ## The capacity -/

theorem roundUp_zero {n : BitVec 64} (hn : n ≠ 0) (fuel : ℕ) : roundUp n fuel 0 = none := by
  induction fuel with
  | zero => rfl
  | succ fuel ih =>
    have hlt : (0 : BitVec 64) < n := by bv_omega
    have hshift : (0 : BitVec 64) <<< 1 = 0 := by decide
    rw [roundUp, if_pos hlt, hshift, ih]

theorem toNat_two_pow {k : ℕ} (hk : k < 64) : (BitVec.ofNat 64 (2 ^ k)).toNat = 2 ^ k := by
  rw [BitVec.toNat_ofNat, Nat.mod_eq_of_lt (Nat.pow_lt_pow_right (by decide) hk)]

/-- The next power of two, unless there is none below `2 ^ 64`. -/
theorem two_pow_shiftLeft (k : ℕ) :
    BitVec.ofNat 64 (2 ^ k) <<< 1 = BitVec.ofNat 64 (2 ^ (k + 1)) := by
  apply BitVec.eq_of_toNat_eq
  rw [BitVec.toNat_shiftLeft, BitVec.toNat_ofNat, BitVec.toNat_ofNat, Nat.shiftLeft_eq, pow_one,
    Nat.mod_mul_mod, Nat.pow_succ 2 k]

theorem eq_of_roundUp {n c : BitVec 64} (hn : n ≠ 0) {fuel j : ℕ} (hj : j < 64)
    (hbelow : ∀ i < j, 2 ^ i < n.toNat) (h : roundUp n fuel (BitVec.ofNat 64 (2 ^ j)) = some c) :
    ∃ k < 64, c = BitVec.ofNat 64 (2 ^ k) ∧ n.toNat ≤ 2 ^ k ∧ ∀ i < k, 2 ^ i < n.toNat := by
  induction fuel generalizing j with
  | zero => cases h
  | succ fuel ih =>
    rw [roundUp] at h
    split_ifs at h with hlt
    · rw [BitVec.lt_def, toNat_two_pow hj] at hlt
      rw [two_pow_shiftLeft] at h
      rcases Nat.lt_or_ge (j + 1) 64 with hj' | hge
      · refine ih hj' (fun i hi => ?_) h
        rcases Nat.lt_succ_iff_lt_or_eq.1 hi with hi | rfl
        · exact hbelow i hi
        · exact hlt
      · -- The next power is `2 ^ 64`, which is 0.
        obtain rfl : j = 63 := by omega
        have hzero : BitVec.ofNat 64 (2 ^ (63 + 1)) = 0 := by decide
        rw [hzero, roundUp_zero hn] at h
        cases h
    · rw [BitVec.lt_def, toNat_two_pow hj, not_lt] at hlt
      exact ⟨j, hj, (Option.some.inj h).symm, hlt, hbelow⟩

theorem eq_of_nextPowerOfTwo {n c : BitVec 64} {fuel : ℕ} (h : nextPowerOfTwo fuel n = some c) :
    ∃ k < 64, c = BitVec.ofNat 64 (2 ^ k) ∧ n.toNat ≤ 2 ^ k ∧ ∀ i < k, 2 ^ i < n.toNat := by
  rw [nextPowerOfTwo] at h
  split_ifs at h with hn
  · subst hn
    exact ⟨0, by decide, (Option.some.inj h).symm, Nat.zero_le _, nofun⟩
  · exact eq_of_roundUp hn (j := 0) (by decide) nofun h

/-- The loop returns when there is a power of two of 64 bits to be found. -/
theorem exists_roundUp {n : BitVec 64} (hn : n.toNat ≤ 2 ^ 63) {j d : ℕ} (hj : j + d = 63) :
    ∃ c, roundUp n (d + 1) (BitVec.ofNat 64 (2 ^ j)) = some c := by
  induction d generalizing j with
  | zero =>
    obtain rfl : j = 63 := hj
    refine ⟨_, if_neg ?_⟩
    rwa [BitVec.lt_def, toNat_two_pow (by decide), not_lt]
  | succ d ih =>
    rw [roundUp]
    split_ifs
    · rw [two_pow_shiftLeft]
      exact ih (by omega)
    · exact ⟨_, rfl⟩

theorem exists_nextPowerOfTwo {n : BitVec 64} (hn : n.toNat ≤ 2 ^ 63) :
    ∃ c, nextPowerOfTwo 64 n = some c := by
  rw [nextPowerOfTwo]
  split_ifs
  · exact ⟨1, rfl⟩
  · exact exists_roundUp hn (j := 0) rfl

/-! ## The invariant -/

/-- How many samples there are from a position to the end of the buffer. -/
def toEnd (k p : ℕ) : ℕ := 2 ^ k - p % 2 ^ k

/-- What the producer is at. -/
def Producer.Ok (k r : ℕ) (queue buffer : List α) : Producer α → Prop
  | .push data => data.length < 2 ^ 64
  | .copy data => queue.length + data.length ≤ 2 ^ k
  | .copyRest data => queue.length + data.length ≤ 2 ^ k ∧
      toEnd k (r + queue.length) < data.length ∧
      Holds buffer r (queue ++ data.take (toEnd k (r + queue.length)))
  | .store data => queue.length + data.length ≤ 2 ^ k ∧ Holds buffer r (queue ++ data)
  | .available (.write w) => w = BitVec.ofNat 64 (r + queue.length)
  | .available (.read p) => ∃ d ≤ r, p = BitVec.ofNat 64 d ∧ r + queue.length - d ≤ 2 ^ k
  | .idle | .available (.none _) => True

/-- How many samples the consumer is about to take. -/
structure Takes (queue : List α) (maxCount count : ℕ) : Prop where
  le_length : count ≤ queue.length
  le_max : count ≤ maxCount
  pos : count = 0 → maxCount = 0

def Consumer.Ok (k r : ℕ) (queue : List α) : Consumer α → Prop
  | .copy maxCount count => Takes queue maxCount count
  | .copyRest maxCount count data => Takes queue maxCount count ∧ toEnd k r < count ∧
      data = queue.take (toEnd k r)
  | .store maxCount count data => Takes queue maxCount count ∧ data = queue.take count
  | .available (.write w) => ∃ d ≤ queue.length, w = BitVec.ofNat 64 (r + d)
  | .available (.read p) => p = BitVec.ofNat 64 r
  | .idle | .pop _ | .available (.none _) => True

structure Wf (k : ℕ) (s : RingBuffer α) (queue : List α) (r : ℕ) : Prop where
  capacity : s.capacity = BitVec.ofNat 64 (2 ^ k)
  length : s.buffer.length = 2 ^ k
  readPos : s.readPos = BitVec.ofNat 64 r
  writePos : s.writePos = BitVec.ofNat 64 (r + queue.length)
  holds : Holds s.buffer r queue
  producer : s.producer.Ok k r queue s.buffer
  consumer : s.consumer.Ok k r queue
  run : FifoRun (2 ^ k) s.returned queue

theorem Wf.length_le (h : Wf k s queue r) : queue.length ≤ 2 ^ k := h.length ▸ h.holds.length_le

/-- The consumer's part is about the head of the queue. -/
theorem Consumer.Ok.push {c : Consumer α} (h : c.Ok k r queue) : c.Ok k r (queue ++ data) := by
  have htakes {maxCount count : ℕ} (ht : Takes queue maxCount count) :
      Takes (queue ++ data) maxCount count := by
    refine ⟨ht.le_length.trans ?_, ht.le_max, ht.pos⟩
    rw [List.length_append]
    exact Nat.le_add_right _ _
  cases c with
  | idle => trivial
  | pop maxCount => trivial
  | copy maxCount count => exact htakes h
  | copyRest maxCount count xs =>
    obtain ⟨ht, hlt, rfl⟩ := h
    refine ⟨htakes ht, hlt, ?_⟩
    rw [List.take_append_of_le_length (hlt.le.trans ht.le_length)]
  | store maxCount count xs =>
    obtain ⟨ht, rfl⟩ := h
    refine ⟨htakes ht, ?_⟩
    rw [List.take_append_of_le_length ht.le_length]
  | available loads =>
    cases loads with
    | none _ => trivial
    | read p => exact h
    | write w =>
      obtain ⟨d, hd, heq⟩ := h
      refine ⟨d, hd.trans ?_, heq⟩
      rw [List.length_append]
      exact Nat.le_add_right _ _

/-- The producer's part is about the place behind the queue. -/
theorem Producer.Ok.pop {p : Producer α} (h : p.Ok k r (data ++ queue) buffer) :
    p.Ok k (r + data.length) queue buffer := by
  have hend : r + (data ++ queue).length = r + data.length + queue.length := by
    rw [List.length_append, Nat.add_assoc]
  have hfit {xs : List α} (hx : (data ++ queue).length + xs.length ≤ 2 ^ k) :
      queue.length + xs.length ≤ 2 ^ k := by
    rw [List.length_append] at hx
    omega
  cases p with
  | idle => trivial
  | push xs => exact h
  | copy xs => exact hfit h
  | copyRest xs =>
    obtain ⟨hx, hlt, hholds⟩ := h
    rw [hend] at hlt hholds
    rw [List.append_assoc] at hholds
    exact ⟨hfit hx, hlt, hholds.right⟩
  | store xs =>
    obtain ⟨hx, hholds⟩ := h
    rw [List.append_assoc] at hholds
    exact ⟨hfit hx, hholds.right⟩
  | available loads =>
    cases loads with
    | none _ => trivial
    | write w => exact Eq.trans h (by rw [hend])
    | read p =>
      obtain ⟨d, hd, heq, hle⟩ := h
      rw [hend] at hle
      exact ⟨d, hd.trans (Nat.le_add_right _ _), heq, hle⟩

section Indices

variable (hk : k < 64)

include hk

theorem Wf.readIdx (h : Wf k s queue r) : s.readIdx = r % 2 ^ k := by
  rw [RingBuffer.readIdx, mask, h.readPos, h.capacity]
  exact toNat_and_mask hk

theorem Wf.writeIdx (h : Wf k s queue r) : s.writeIdx = (r + queue.length) % 2 ^ k := by
  rw [RingBuffer.writeIdx, mask, h.writePos, h.capacity]
  exact toNat_and_mask hk

theorem toNat_capacity_sub (p : ℕ) : (BitVec.ofNat 64 (2 ^ k) -
    (BitVec.ofNat 64 p &&& (BitVec.ofNat 64 (2 ^ k) - 1))).toNat = toEnd k p := by
  have hidx : (BitVec.ofNat 64 p &&& (BitVec.ofNat 64 (2 ^ k) - 1)).toNat = p % 2 ^ k :=
    toNat_and_mask hk
  rw [BitVec.toNat_sub_of_le, hidx, toNat_two_pow hk]
  · rfl
  · rw [BitVec.le_def, hidx, toNat_two_pow hk]
    exact (Nat.mod_lt _ (Nat.two_pow_pos k)).le

theorem Wf.readTail (h : Wf k s queue r) : s.readTail = toEnd k r := by
  rw [RingBuffer.readTail, mask, h.readPos, h.capacity, toNat_capacity_sub hk]

theorem Wf.writeTail (h : Wf k s queue r) : s.writeTail = toEnd k (r + queue.length) := by
  rw [RingBuffer.writeTail, mask, h.writePos, h.capacity, toNat_capacity_sub hk]

theorem two_pow_lt : 2 ^ k < 2 ^ 64 := Nat.pow_lt_pow_right (by decide) hk

theorem Wf.toNat_sub (h : Wf k s queue r) : (s.writePos - s.readPos).toNat = queue.length := by
  rw [h.writePos, h.readPos]
  exact Circular.toNat_sub (h.length_le.trans_lt (two_pow_lt hk))

end Indices

/-! ## The steps -/

section Step

variable (hk : k < 64)

include hk

/-- What `available()` has loaded, and what it returns. -/
theorem Wf.producer_load (h : Wf k s queue r) {loads : Loads} (hp : s.producer = .available loads) :
    (∀ loads', s.load loads = .inl loads' →
      (Producer.available (α := α) loads').Ok k r queue s.buffer) ∧
    ∀ n, s.load loads = .inr n → n ≤ 2 ^ k := by
  have hok := h.producer
  rw [hp] at hok
  cases loads with
  | none writeFirst =>
    refine ⟨fun loads' heq => ?_, fun n heq => ?_⟩
    · cases writeFirst with
      | true => exact Sum.inl.inj heq ▸ h.writePos
      | false =>
        obtain rfl := Sum.inl.inj heq
        refine ⟨r, le_rfl, h.readPos, ?_⟩
        rw [Nat.add_sub_cancel_left]
        exact h.length_le
    · cases writeFirst <;> cases heq
  | write w =>
    obtain rfl : w = BitVec.ofNat 64 (r + queue.length) := hok
    refine ⟨nofun, fun n heq => Sum.inr.inj heq ▸ ?_⟩
    rw [h.readPos, Circular.toNat_sub (h.length_le.trans_lt (two_pow_lt hk))]
    exact h.length_le
  | read p =>
    obtain ⟨d, hd, rfl, hle⟩ := hok
    refine ⟨nofun, fun n heq => Sum.inr.inj heq ▸ ?_⟩
    have hend : r + queue.length = d + (r + queue.length - d) := by omega
    rw [h.writePos, hend, Circular.toNat_sub (hle.trans_lt (two_pow_lt hk))]
    exact hle

theorem Wf.consumer_load (h : Wf k s queue r) {loads : Loads} (hc : s.consumer = .available loads) :
    (∀ loads', s.load loads = .inl loads' →
      (Consumer.available (α := α) loads').Ok k r queue) ∧
    ∀ n, s.load loads = .inr n → n ≤ 2 ^ k := by
  have hok := h.consumer
  rw [hc] at hok
  cases loads with
  | none writeFirst =>
    refine ⟨fun loads' heq => ?_, fun n heq => ?_⟩
    · cases writeFirst with
      | true => exact Sum.inl.inj heq ▸ ⟨queue.length, le_rfl, h.writePos⟩
      | false => exact Sum.inl.inj heq ▸ h.readPos
    · cases writeFirst <;> cases heq
  | write w =>
    obtain ⟨d, hd, rfl⟩ := hok
    refine ⟨nofun, fun n heq => Sum.inr.inj heq ▸ ?_⟩
    have hle := hd.trans h.length_le
    rw [h.readPos, Circular.toNat_sub (hle.trans_lt (two_pow_lt hk))]
    exact hle
  | read p =>
    obtain rfl : p = BitVec.ofNat 64 r := hok
    refine ⟨nofun, fun n heq => Sum.inr.inj heq ▸ ?_⟩
    rw [h.writePos, Circular.toNat_sub (h.length_le.trans_lt (two_pow_lt hk))]
    exact h.length_le

/-- A push is rejected just when the batch does not fit. -/
theorem Wf.lt_iff (h : Wf k s queue r) (hdata : data.length < 2 ^ 64) :
    s.capacity - (s.writePos - s.readPos) < BitVec.ofNat 64 data.length ↔
      2 ^ k < queue.length + data.length := by
  have hsub : (s.capacity - (s.writePos - s.readPos)).toNat = 2 ^ k - queue.length := by
    have hle := h.length_le
    rw [BitVec.toNat_sub_of_le, h.toNat_sub hk, h.capacity, toNat_two_pow hk]
    rw [BitVec.le_def, h.toNat_sub hk, h.capacity, toNat_two_pow hk]
    exact hle
  have hle := h.length_le
  rw [BitVec.lt_def, hsub, BitVec.toNat_ofNat, Nat.mod_eq_of_lt hdata]
  omega

theorem Wf.produce (h : Wf k s queue r) (hst : s.produce = some s') :
    ∃ queue', Wf k s' queue' r := by
  have hok := h.producer
  rw [RingBuffer.produce] at hst
  split at hst
  · cases hst
  · rename_i data hp
    rw [hp] at hok
    split_ifs at hst with hlt
    · rw [h.lt_iff hk hok] at hlt
      obtain rfl := Option.some.inj hst
      exact ⟨queue, { h with producer := trivial, run := h.run.concat (.full hlt) }⟩
    · rw [h.lt_iff hk hok, not_lt] at hlt
      obtain rfl := Option.some.inj hst
      exact ⟨queue, { h with producer := hlt }⟩
  · rename_i data hp
    rw [hp] at hok
    have hfit : queue.length + data.length ≤ s.buffer.length := h.length ▸ hok
    have hidx : s.writeIdx = (r + queue.length) % s.buffer.length := h.length ▸ h.writeIdx hk
    have hmod := Nat.mod_lt (r + queue.length) (Nat.two_pow_pos k)
    have htail := h.writeTail hk
    rw [toEnd] at htail
    have hlen := h.length
    split_ifs at hst with hle
    · obtain rfl := Option.some.inj hst
      have hend : s.writeIdx + data.length ≤ s.buffer.length := by
        rw [h.writeIdx hk]
        omega
      have hcopy := h.holds.copy hidx hend hfit
      exact ⟨queue, { h with
        length := (length_copy hend).trans h.length, holds := hcopy.left,
        producer := ⟨hok, hcopy⟩ }⟩
    · obtain rfl := Option.some.inj hst
      have htake : (data.take s.writeTail).length = s.writeTail :=
        List.length_take_of_le (Nat.le_of_not_le hle)
      have hend : s.writeIdx + (data.take s.writeTail).length ≤ s.buffer.length := by
        rw [htake, h.writeIdx hk]
        omega
      have hcopy := h.holds.copy hidx hend (by rw [htake]; omega)
      refine ⟨queue, { h with
        length := (length_copy hend).trans h.length, holds := hcopy.left,
        producer := ⟨hok, ?_, ?_⟩ }⟩
      · rw [← h.writeTail hk]
        exact not_le.1 hle
      · rw [← h.writeTail hk]
        exact hcopy
  · rename_i data hp
    rw [hp] at hok
    obtain ⟨hfit, hlt, hholds⟩ := hok
    obtain rfl := Option.some.inj hst
    have hmod := Nat.mod_lt (r + queue.length) (Nat.two_pow_pos k)
    rw [← h.writeTail hk] at hlt hholds
    have htail : s.writeTail = 2 ^ k - (r + queue.length) % 2 ^ k := h.writeTail hk
    have htake : (data.take s.writeTail).length = s.writeTail :=
      List.length_take_of_le hlt.le
    have hlen := h.length
    -- The rest begins at the end of a round.
    have hidx : 0 = (r + (queue ++ data.take s.writeTail).length) % s.buffer.length := by
      have hdiv := Nat.div_add_mod (r + queue.length) (2 ^ k)
      rw [List.length_append, htake, hlen]
      refine (Nat.mod_eq_zero_of_dvd ⟨(r + queue.length) / 2 ^ k + 1, ?_⟩).symm
      rw [Nat.mul_add, Nat.mul_one]
      omega
    have hend : 0 + (data.drop s.writeTail).length ≤ s.buffer.length := by
      rw [List.length_drop]
      omega
    have hcopy := hholds.copy hidx hend (by
      rw [List.length_append, List.length_drop, htake]
      omega)
    rw [List.append_assoc, List.take_append_drop] at hcopy
    exact ⟨queue, { h with
      length := (length_copy hend).trans h.length, holds := hcopy.left,
      producer := ⟨hfit, hcopy⟩ }⟩
  · rename_i data hp
    rw [hp] at hok
    obtain ⟨hfit, hholds⟩ := hok
    obtain rfl := Option.some.inj hst
    refine ⟨queue ++ data, { h with
      writePos := ?_, holds := hholds, producer := trivial, consumer := h.consumer.push,
      run := h.run.concat (.push hfit) }⟩
    show s.writePos + _ = _
    rw [h.writePos, List.length_append, ← BitVec.ofNat_add, Nat.add_assoc]
  · rename_i loads hp
    obtain ⟨hinl, hinr⟩ := h.producer_load hk hp
    split at hst
    · rename_i loads' heq
      obtain rfl := Option.some.inj hst
      exact ⟨queue, { h with producer := hinl loads' heq }⟩
    · rename_i n heq
      obtain rfl := Option.some.inj hst
      exact ⟨queue, { h with
        producer := trivial, run := h.run.concat (.available (hinr n heq)) }⟩

theorem Wf.consume (h : Wf k s queue r) (hst : s.consume = some s') :
    ∃ queue' r', Wf k s' queue' r' := by
  have hok := h.consumer
  have hlen := h.length
  have hle := h.length_le
  have htail : s.readTail = 2 ^ k - r % 2 ^ k := h.readTail hk
  have hmod := Nat.mod_lt r (Nat.two_pow_pos k)
  have hidx : s.readIdx = r % s.buffer.length := hlen ▸ h.readIdx hk
  rw [RingBuffer.consume] at hst
  split at hst
  · cases hst
  · rename_i maxCount hc
    dsimp only at hst
    rw [h.toNat_sub hk] at hst
    split_ifs at hst with hzero
    · obtain rfl := Option.some.inj hst
      have hempty : queue = [] := List.length_eq_zero_iff.1 hzero
      subst hempty
      have hpop (maxCount : ℕ) : Fifo (2 ^ k) ([] ++ [] : List α) (.pop maxCount []) [] :=
        .pop (Nat.zero_le _) fun _ => .inr rfl
      exact ⟨[], r, { h with consumer := trivial, run := h.run.concat (hpop maxCount) }⟩
    · obtain rfl := Option.some.inj hst
      have htakes : Takes queue maxCount (min queue.length maxCount) :=
        ⟨min_le_left _ _, min_le_right _ _, fun hmin => by omega⟩
      exact ⟨queue, r, { h with consumer := htakes }⟩
  · rename_i maxCount count hc
    rw [hc] at hok
    split_ifs at hst with hcount
    · obtain rfl := Option.some.inj hst
      have hread := h.holds.read hidx (by rw [h.readIdx hk]; omega) hok.le_length
      exact ⟨queue, r, { h with consumer := ⟨hok, hread⟩ }⟩
    · obtain rfl := Option.some.inj hst
      have hlt : s.readTail < count := not_le.1 hcount
      have hread := h.holds.read hidx (n := s.readTail) (by rw [h.readIdx hk]; omega)
        (hlt.le.trans hok.le_length)
      refine ⟨queue, r, { h with consumer := ⟨hok, ?_, ?_⟩ }⟩
      · rwa [← h.readTail hk]
      · rwa [← h.readTail hk]
  · rename_i maxCount count data hc
    rw [hc] at hok
    obtain ⟨htakes, hlt, rfl⟩ := hok
    obtain rfl := Option.some.inj hst
    rw [← h.readTail hk] at hlt ⊢
    -- The rest of the queue is held from the end of a round on.
    have hsplit : Holds s.buffer r (queue.take s.readTail ++ queue.drop s.readTail) := by
      rw [List.take_append_drop]
      exact h.holds
    have htake : (queue.take s.readTail).length = s.readTail :=
      List.length_take_of_le (hlt.le.trans htakes.le_length)
    have hrest := hsplit.right
    rw [htake] at hrest
    have hidx : 0 = (r + s.readTail) % s.buffer.length := by
      have hdiv := Nat.div_add_mod r (2 ^ k)
      rw [hlen]
      refine (Nat.mod_eq_zero_of_dvd ⟨r / 2 ^ k + 1, ?_⟩).symm
      rw [Nat.mul_add, Nat.mul_one]
      omega
    have hcount := htakes.le_length
    have hread := hrest.read hidx (n := count - s.readTail) (by omega) (by
      rw [List.length_drop]
      omega)
    rw [List.drop_zero] at hread
    refine ⟨queue, r, { h with consumer := ⟨htakes, ?_⟩ }⟩
    rw [hread, ← List.take_add, Nat.add_sub_cancel' hlt.le]
  · rename_i maxCount count data hc
    rw [hc] at hok
    obtain ⟨htakes, rfl⟩ := hok
    obtain rfl := Option.some.inj hst
    have htake : (queue.take count).length = count := List.length_take_of_le htakes.le_length
    have hsplit : queue = queue.take count ++ queue.drop count := (List.take_append_drop ..).symm
    have hlength : queue.length = count + (queue.drop count).length := by
      conv_lhs => rw [hsplit]
      rw [List.length_append, htake]
    have hholds := h.holds
    have hproducer := h.producer
    have hrun := h.run
    rw [hsplit] at hholds hproducer hrun
    have hend := hholds.right
    have hproducer := hproducer.pop
    rw [htake] at hend hproducer
    refine ⟨queue.drop count, r + count, { h with
      readPos := ?_, writePos := ?_, holds := hend, producer := hproducer, consumer := trivial,
      run := hrun.concat (.pop ?_ fun hnil => ?_) }⟩
    · show s.readPos + _ = _
      rw [h.readPos, ← BitVec.ofNat_add]
    · rw [Nat.add_assoc, ← hlength]
      exact h.writePos
    · rw [htake]
      exact htakes.le_max
    · rw [hnil, List.length_nil] at htake
      exact .inl (htakes.pos htake.symm)
  · rename_i loads hc
    obtain ⟨hinl, hinr⟩ := h.consumer_load hk hc
    split at hst
    · rename_i loads' heq
      obtain rfl := Option.some.inj hst
      exact ⟨queue, r, { h with consumer := hinl loads' heq }⟩
    · rename_i n heq
      obtain rfl := Option.some.inj hst
      exact ⟨queue, r, { h with
        consumer := trivial, run := h.run.concat (.available (hinr n heq)) }⟩

end Step

/-! ## The runs -/

theorem Wf.step (hk : k < 64) (h : Wf k s queue r) {l : Label α} (hst : step s l = some s') :
    ∃ queue' r', Wf k s' queue' r' := by
  cases l with
  | push data =>
    simp only [RingBuffer.step] at hst
    split at hst
    · split_ifs at hst with hlt
      exact Option.some.inj hst ▸ ⟨queue, r, { h with producer := hlt }⟩
    · cases hst
  | pop maxCount =>
    simp only [RingBuffer.step] at hst
    split at hst
    · split_ifs at hst
      exact Option.some.inj hst ▸ ⟨queue, r, { h with consumer := trivial }⟩
    · cases hst
  | producerAvailable writeFirst =>
    simp only [RingBuffer.step] at hst
    split at hst
    · exact Option.some.inj hst ▸ ⟨queue, r, { h with producer := trivial }⟩
    · cases hst
  | consumerAvailable writeFirst =>
    simp only [RingBuffer.step] at hst
    split at hst
    · exact Option.some.inj hst ▸ ⟨queue, r, { h with consumer := trivial }⟩
    · cases hst
  | produce =>
    obtain ⟨queue', h'⟩ := h.produce hk hst
    exact ⟨queue', r, h'⟩
  | consume => exact h.consume hk hst

theorem reachable_wf [Inhabited α] (hk : k < 64)
    (hs : (system (α := α) (BitVec.ofNat 64 (2 ^ k))).Reachable s) :
    ∃ queue r, Wf k s queue r := by
  refine hs.invariant (I := fun s => ∃ queue r, Wf k s queue r) ⟨[], 0, ?_⟩
    fun s l s' ⟨queue, r, h⟩ hst => h.step hk hst
  exact
    { capacity := rfl
      length := by rw [system, List.length_replicate, toNat_two_pow hk]
      readPos := rfl
      writePos := rfl
      holds := .nil
      producer := trivial
      consumer := trivial
      run := .nil }

/-- The samples of the pushes that have succeeded. -/
def pushed (calls : List (Call α)) : List α :=
  calls.flatMap fun
    | .push data true => data
    | _ => []

/-- The samples that have been popped. -/
def popped (calls : List (Call α)) : List α :=
  calls.flatMap fun
    | .pop _ data => data
    | _ => []

/-- What has been pushed has been popped, in order, or is in the queue. -/
theorem FifoRun.pushed_eq {capacity : ℕ} {calls : List (Call α)}
    (h : FifoRun capacity calls queue) : pushed calls = popped calls ++ queue := by
  induction h with
  | nil => rfl
  | concat _ hcall ih =>
    simp only [pushed, popped, List.flatMap_append, List.flatMap_singleton] at ih ⊢
    rw [ih]
    cases hcall <;> simp

/-- A queue that holds no more than its capacity still does after a call. -/
theorem Fifo.length_le {capacity : ℕ} {call : Call α} (h : Fifo capacity queue call queue')
    (hle : queue.length ≤ capacity) : queue'.length ≤ capacity := by
  cases h with
  | push hfit => exact (List.length_append ..).trans_le hfit
  | full _ => exact hle
  | pop _ _ => exact (List.length_append .. ▸ Nat.le_add_left ..).trans hle
  | available _ => exact hle

/-- A buffer is made for every capacity that has a next power of two in 64
    bits, and is a bounded queue of that length. -/
theorem refines [Inhabited α] (n : BitVec 64) :
    (n.toNat ≤ 2 ^ 63 → ∃ c, nextPowerOfTwo 64 n = some c) ∧
    ∀ fuel c, nextPowerOfTwo fuel n = some c →
      (∃ k, c.toNat = 2 ^ k ∧ n.toNat ≤ 2 ^ k ∧ ∀ i < k, 2 ^ i < n.toNat) ∧
      ∀ s : RingBuffer α, (system c).Reachable s →
        ∃ queue, FifoRun c.toNat s.returned queue ∧
          pushed s.returned = popped s.returned ++ queue ∧
          (s.writePos - s.readPos).toNat = queue.length ∧ queue.length ≤ c.toNat := by
  refine ⟨exists_nextPowerOfTwo, fun fuel c hc => ?_⟩
  obtain ⟨k, hk, rfl, hle, hbelow⟩ := eq_of_nextPowerOfTwo hc
  rw [toNat_two_pow hk]
  refine ⟨⟨k, rfl, hle, hbelow⟩, fun s hs => ?_⟩
  obtain ⟨queue, r, h⟩ := reachable_wf hk hs
  exact ⟨queue, h.run, h.run.pushed_eq, h.toNat_sub hk, h.length_le⟩

/-- A capacity of 3, with a batch that goes over the end of the buffer. -/
theorem refines_three : ∃ (s : RingBuffer ℕ) (queue : List ℕ),
    (system 4).Reachable s ∧ FifoRun 4 s.returned queue ∧
    popped s.returned = [1, 2, 3, 4, 5] ∧ pushed s.returned = popped s.returned ++ queue := by
  have hrun : ((system (α := ℕ) 4).exec (system 4).init
      [.push [1, 2, 3], .produce, .produce, .pop 2, .consume, .produce, .pop 2, .consume, .consume,
        .push [4, 5, 6], .consume, .produce, .produce, .produce, .produce, .pop 3, .consume,
        .consume, .consume, .consume]).map
      (fun s => popped s.returned) = some [1, 2, 3, 4, 5] := by
    decide
  obtain ⟨s, hs, hpopped⟩ := Option.map_eq_some_iff.1 hrun
  have hreachable : (system 4).Reachable s := System.Reachable.exec .init hs
  obtain ⟨queue, hfifo, heq, -⟩ := ((refines 3).2 64 4 (by decide)).2 s hreachable
  exact ⟨s, queue, hreachable, hfifo, hpopped, heq⟩

end Yuviz.Gateway.RingBuffer
