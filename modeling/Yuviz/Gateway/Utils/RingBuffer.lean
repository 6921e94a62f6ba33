import Yuviz.Circular
import Yuviz.System

/-!
# The ring buffer between the receiver and a worker

`RingBuffer<T>` of `utils/RingBuffer.h`: one producer pushes batches of samples,
and one consumer pops them. Every step is a load or a store of a position, or a
`memcpy`. The positions are counters of 64 bits that wrap around, and the
capacity is a power of two.

A run of the two is one of a bounded FIFO queue: what the calls have returned,
in the order in which they took effect, is what the calls of a queue would have
(`refines`). `available()` loads the two positions one after the other, in
an order C++ leaves open, and is called by either of the threads.
-/

namespace Yuviz.Gateway

variable {α : Type*}

namespace RingBuffer

/-- The loop of `next_power_of_two`, which may not return. -/
def roundUp (n : BitVec 64) : ℕ → BitVec 64 → Option (BitVec 64)
  | 0, _ => none
  | fuel + 1, p => if p < n then roundUp n fuel (p <<< 1) else some p

def nextPowerOfTwo (fuel : ℕ) (n : BitVec 64) : Option (BitVec 64) :=
  if n = 0 then some 1 else roundUp n fuel 1

/-! ## The bounded queue -/

/-- What a call has returned. -/
inductive Call (α : Type*)
  | push (data : List α) (ok : Bool)
  | pop (maxCount : ℕ) (data : List α)
  | available (n : ℕ)

/-- A call of a queue of at most `capacity` samples. -/
inductive Fifo (capacity : ℕ) : List α → Call α → List α → Prop
  | push {queue data : List α} (hfit : queue.length + data.length ≤ capacity) :
    Fifo capacity queue (.push data true) (queue ++ data)
  | full {queue data : List α} (hfull : capacity < queue.length + data.length) :
    Fifo capacity queue (.push data false) queue
  /-- No more samples are taken than there are, and some if there are any. -/
  | pop {queue data : List α} {maxCount : ℕ} (hle : data.length ≤ maxCount)
      (hsome : data = [] → maxCount = 0 ∨ queue = []) :
    Fifo capacity (data ++ queue) (.pop maxCount data) queue
  | available {queue : List α} {n : ℕ} (hle : n ≤ capacity) :
    Fifo capacity queue (.available n) queue

/-- The calls of a run of the queue, one after the other. -/
inductive FifoRun (capacity : ℕ) : List (Call α) → List α → Prop
  | nil : FifoRun capacity [] []
  | concat {calls : List (Call α)} {call : Call α} {queue queue' : List α}
      (h : FifoRun capacity calls queue) (hcall : Fifo capacity queue call queue') :
    FifoRun capacity (calls ++ [call]) queue'

/-! ## The threads -/

/-- A thread in `available()`: which position it has loaded, if any. -/
inductive Loads
  | none (writeFirst : Bool)
  | write (w : BitVec 64)
  | read (r : BitVec 64)

inductive Producer (α : Type*)
  | idle
  /-- `write_pos_` has been loaded; no other thread stores it. -/
  | push (data : List α)
  /-- The batch fits: the first `memcpy`, -/
  | copy (data : List α)
  /-- the one of the rest, -/
  | copyRest (data : List α)
  /-- and the store of `write_pos_`. -/
  | store (data : List α)
  | available (loads : Loads)

inductive Consumer (α : Type*)
  | idle
  /-- `read_pos_` has been loaded; no other thread stores it. -/
  | pop (maxCount : ℕ)
  | copy (maxCount count : ℕ)
  | copyRest (maxCount count : ℕ) (data : List α)
  | store (maxCount count : ℕ) (data : List α)
  | available (loads : Loads)

end RingBuffer

open RingBuffer

structure RingBuffer (α : Type*) where
  capacity : BitVec 64
  buffer : List α
  writePos : BitVec 64
  readPos : BitVec 64
  producer : Producer α
  consumer : Consumer α
  /-- What the calls have returned. -/
  returned : List (RingBuffer.Call α)

namespace RingBuffer

variable (s : RingBuffer α)

def mask : BitVec 64 := s.capacity - 1

/-- `w & mask_`, and how many samples there are from there to the end. -/
def writeIdx : ℕ := (s.writePos &&& s.mask).toNat
def writeTail : ℕ := (s.capacity - (s.writePos &&& s.mask)).toNat
def readIdx : ℕ := (s.readPos &&& s.mask).toNat
def readTail : ℕ := (s.capacity - (s.readPos &&& s.mask)).toNat

/-- A step of `available()`. -/
def load : Loads → Loads ⊕ ℕ
  | .none true => .inl (.write s.writePos)
  | .none false => .inl (.read s.readPos)
  | .write w => .inr (w - s.readPos).toNat
  | .read r => .inr (s.writePos - r).toNat

/-- The next step of the producer. -/
def produce : Option (RingBuffer α) :=
  match s.producer with
  | .idle => none
  | .push data =>
    if s.capacity - (s.writePos - s.readPos) < BitVec.ofNat 64 data.length then some
      { s with
        producer := .idle
        returned := s.returned ++ [.push data false] }
    else some { s with producer := .copy data }
  | .copy data =>
    if data.length ≤ s.writeTail then some
      { s with
        buffer := Circular.copy s.buffer s.writeIdx data
        producer := .store data }
    else some
      { s with
        buffer := Circular.copy s.buffer s.writeIdx (data.take s.writeTail)
        producer := .copyRest data }
  | .copyRest data => some
      { s with
        buffer := Circular.copy s.buffer 0 (data.drop s.writeTail)
        producer := .store data }
  | .store data => some
      { s with
        writePos := s.writePos + BitVec.ofNat 64 data.length
        producer := .idle
        returned := s.returned ++ [.push data true] }
  | .available loads =>
    match s.load loads with
    | .inl loads => some { s with producer := .available loads }
    | .inr n => some
        { s with
          producer := .idle
          returned := s.returned ++ [.available n] }

/-- The next step of the consumer. -/
def consume : Option (RingBuffer α) :=
  match s.consumer with
  | .idle => none
  | .pop maxCount =>
    let avail := (s.writePos - s.readPos).toNat
    if avail = 0 then some
      { s with
        consumer := .idle
        returned := s.returned ++ [.pop maxCount []] }
    else some { s with consumer := .copy maxCount (min avail maxCount) }
  | .copy maxCount count =>
    if count ≤ s.readTail then some
      { s with consumer := .store maxCount count ((s.buffer.drop s.readIdx).take count) }
    else some
      { s with consumer := .copyRest maxCount count ((s.buffer.drop s.readIdx).take s.readTail) }
  | .copyRest maxCount count data => some
      { s with consumer := .store maxCount count (data ++ s.buffer.take (count - s.readTail)) }
  | .store maxCount count data => some
      { s with
        readPos := s.readPos + BitVec.ofNat 64 count
        consumer := .idle
        returned := s.returned ++ [.pop maxCount data] }
  | .available loads =>
    match s.load loads with
    | .inl loads => some { s with consumer := .available loads }
    | .inr n => some
        { s with
          consumer := .idle
          returned := s.returned ++ [.available n] }

inductive Label (α : Type*)
  /-- A call begins. -/
  | push (data : List α)
  | pop (maxCount : ℕ)
  | producerAvailable (writeFirst : Bool)
  | consumerAvailable (writeFirst : Bool)
  /-- A thread goes on. -/
  | produce
  | consume

/-- The counts are of type `size_t`. -/
def step : RingBuffer α → Label α → Option (RingBuffer α)
  | s, .push data =>
    match s.producer with
    | .idle => if data.length < 2 ^ 64 then some { s with producer := .push data } else none
    | _ => none
  | s, .pop maxCount =>
    match s.consumer with
    | .idle => if maxCount < 2 ^ 64 then some { s with consumer := .pop maxCount } else none
    | _ => none
  | s, .producerAvailable writeFirst =>
    match s.producer with
    | .idle => some { s with producer := .available (.none writeFirst) }
    | _ => none
  | s, .consumerAvailable writeFirst =>
    match s.consumer with
    | .idle => some { s with consumer := .available (.none writeFirst) }
    | _ => none
  | s, .produce => s.produce
  | s, .consume => s.consume

/-- A buffer of a capacity, with the samples that `make_unique` puts there. -/
def system [Inhabited α] (capacity : BitVec 64) : System (RingBuffer α) (Label α) where
  init := ⟨capacity, List.replicate capacity.toNat default, 0, 0, .idle, .idle, []⟩
  step := step

end RingBuffer

end Yuviz.Gateway
