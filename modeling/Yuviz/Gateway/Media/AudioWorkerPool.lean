import Mathlib
import Yuviz.Log
import Yuviz.System

/-!
# The pool of audio workers

Every session of a pool is in the list of one worker, which drains it round after
round, from a copy of the list. `unassign` takes a session out of its list, marks
its entry as removed, and waits for the drain that is under way to end. The system
has the steps of the workers and of any number of calls of `assign` and `unassign`.
A section under a `sessions_mutex` is one step, and so is a call of a method, but for
`drain_available`.

A session is drained by one worker at a time, and by none any more once it has been
handed back (`exclusive`), if its owner makes one call about it at a time (`Serial`).
But a worker that has found an entry not removed may ask the session for input much
later. No method is called on a session that has been handed back in the runs where
there is no such worker when `unassign` returns (`handBack`), and otherwise one may
be (`called_of_probing`).
-/

namespace Yuviz.Gateway

namespace AudioWorkerPool

structure Entry (S : Type*) where
  id : ℕ
  session : S
  deriving DecidableEq

/-- Where a worker is in its loop. -/
inductive Worker (S : Type*)
  /-- It is about to read `running_`. -/
  | checking
  /-- It is about to copy its list. -/
  | snapshotting
  /-- It is about to read `removed` of the next entry. -/
  | iterating (rest : List (Entry S)) (didWork : Bool)
  /-- It has found the entry not removed, and is about to call `has_inbound`. -/
  | probing (entry : Entry S) (rest : List (Entry S)) (didWork : Bool)
  /-- It is about to take the `drain_mutex`. -/
  | locking (entry : Entry S) (rest : List (Entry S)) (didWork : Bool)
  /-- It has the mutex, and is about to read `removed` again. -/
  | locked (entry : Entry S) (rest : List (Entry S)) (didWork : Bool)
  /-- It is about to call `drain_available`. -/
  | starting (entry : Entry S) (rest : List (Entry S))
  | draining (entry : Entry S) (rest : List (Entry S))
  /-- The drain has thrown, and the worker is about to call `session_id`. -/
  | reporting (entry : Entry S) (rest : List (Entry S))
  /-- It is about to give the mutex back. -/
  | leaving (entry : Entry S) (rest : List (Entry S)) (didWork : Bool)
  | returned
  deriving DecidableEq

/-- Where a call of `assign` or `unassign` is. -/
inductive Caller (n : ℕ) (S : Type*)
  | idle
  /-- It is about to add the session to the list of the worker. -/
  | assigning (session : S) (idx : Fin n)
  | counting (session : S)
  /-- It is about to look for the session in the `i`-th list. -/
  | scanning (session : S) (i : ℕ)
  /-- It has found the entry. -/
  | found (entry : Entry S)
  /-- It is about to take the `drain_mutex`. -/
  | waiting (entry : Entry S)
  /-- It has the mutex. -/
  | barrier (entry : Entry S)
  deriving DecidableEq

inductive Holder (n m : ℕ)
  | worker (w : Fin n)
  | caller (c : Fin m)
  deriving DecidableEq

inductive Method
  | hasInbound
  | drainAvailable
  | sessionId
  deriving DecidableEq

inductive Event (n : ℕ) (S : Type*)
  | assigned (entry : Entry S)
  /-- A call of `unassign` has returned. -/
  | unassigned (session : S)
  | called (w : Fin n) (session : S) (method : Method)
  deriving DecidableEq

end AudioWorkerPool

open AudioWorkerPool (Entry Worker Caller Holder Event)

/-- A pool of `n` workers, for `m` threads. -/
structure AudioWorkerPool (n m : ℕ) (S : Type*) where
  running : Bool
  roundRobin : BitVec 64
  sessionCount : BitVec 64
  sessions : Fin n → List (Entry S)
  /-- The entries whose flag is set. -/
  removed : Finset (Entry S)
  /-- Who has the `drain_mutex` of an entry. -/
  drain : Entry S → Option (Holder n m)
  workers : Fin n → Worker S
  /-- What the threads that use the pool are doing. -/
  callers : Fin m → Caller n S
  /-- The entries made so far. -/
  entries : ℕ
  log : List (Event n S)

namespace AudioWorkerPool

inductive Label (n m : ℕ) (S : Type*)
  | assign (c : Fin m) (session : S)
  | unassign (c : Fin m) (session : S)
  /-- The next step of the call of a thread. -/
  | caller (c : Fin m)
  /-- The next step of a worker. `has_inbound` returns `result`, or
      `drain_available` throws if it is true. -/
  | worker (w : Fin n) (result : Bool)
  | stop

variable {n m : ℕ} {S : Type*}

section

variable [DecidableEq S] (s : AudioWorkerPool n m S)

def setWorker (w : Fin n) (worker : Worker S) : AudioWorkerPool n m S :=
  { s with workers := Function.update s.workers w worker }

def setCaller (c : Fin m) (caller : Caller n S) : AudioWorkerPool n m S :=
  { s with callers := Function.update s.callers c caller }

def setDrain (entry : Entry S) (holder : Option (Holder n m)) : AudioWorkerPool n m S :=
  { s with drain := Function.update s.drain entry holder }

def record (event : Event n S) : AudioWorkerPool n m S := { s with log := s.log ++ [event] }

def workerLoop (w : Fin n) (result : Bool) : Option (AudioWorkerPool n m S) :=
  match s.workers w with
  | .checking => some (s.setWorker w (if s.running then .snapshotting else .returned))
  | .snapshotting => some (s.setWorker w (.iterating (s.sessions w) false))
  -- It sleeps first, if it has done no work.
  | .iterating [] _ => some (s.setWorker w .checking)
  | .iterating (entry :: rest) didWork => some
    (s.setWorker w
      (if entry ∈ s.removed then .iterating rest didWork else .probing entry rest didWork))
  | .probing entry rest didWork => some
    ((s.record (.called w entry.session .hasInbound)).setWorker w
      (if result then .locking entry rest didWork else .iterating rest didWork))
  | .locking entry rest didWork =>
    if s.drain entry = none then
      some ((s.setDrain entry (some (.worker w))).setWorker w (.locked entry rest didWork))
    else none
  | .locked entry rest didWork => some
    (s.setWorker w
      (if entry ∈ s.removed then .leaving entry rest didWork else .starting entry rest))
  | .starting entry rest => some
    ((s.record (.called w entry.session .drainAvailable)).setWorker w (.draining entry rest))
  | .draining entry rest => some
    (s.setWorker w (if result then .reporting entry rest else .leaving entry rest true))
  | .reporting entry rest => some
    ((s.record (.called w entry.session .sessionId)).setWorker w (.leaving entry rest true))
  | .leaving entry rest didWork =>
    some ((s.setDrain entry none).setWorker w (.iterating rest didWork))
  | .returned => none

/-- The first step of `assign` takes the number of the worker. -/
def assign [NeZero n] (c : Fin m) (session : S) : Option (AudioWorkerPool n m S) :=
  if s.callers c = .idle then
    some ({ s with roundRobin := s.roundRobin + 1 }.setCaller c
      (.assigning session (Fin.ofNat n s.roundRobin.toNat)))
  else none

def push (c : Fin m) (session : S) (idx : Fin n) : AudioWorkerPool n m S :=
  let entry : Entry S := ⟨s.entries, session⟩
  { s.record (.assigned entry) with
    sessions := Function.update s.sessions idx (s.sessions idx ++ [entry])
    entries := s.entries + 1 }.setCaller c (.counting session)

def unassign (c : Fin m) (session : S) : Option (AudioWorkerPool n m S) :=
  if s.callers c = .idle then some (s.setCaller c (.scanning session 0)) else none

/-- `unassign` looks for the session in one list, and returns after the last. -/
def scan (c : Fin m) (session : S) (i : ℕ) : AudioWorkerPool n m S :=
  if h : i < n then
    match (s.sessions ⟨i, h⟩).find? (·.session = session) with
    | some entry =>
      { s with
        removed := insert entry s.removed
        sessions := Function.update s.sessions ⟨i, h⟩
          ((s.sessions ⟨i, h⟩).eraseP (·.session = session)) }.setCaller c (.found entry)
    | none => s.setCaller c (.scanning session (i + 1))
  else (s.record (.unassigned session)).setCaller c .idle

def call (c : Fin m) : Option (AudioWorkerPool n m S) :=
  match s.callers c with
  | .idle => none
  | .assigning session idx => some (s.push c session idx)
  | .counting _ => some ({ s with sessionCount := s.sessionCount + 1 }.setCaller c .idle)
  | .scanning session i => some (s.scan c session i)
  | .found entry =>
    some ({ s with sessionCount := s.sessionCount - 1 }.setCaller c (.waiting entry))
  | .waiting entry =>
    if s.drain entry = none then
      some ((s.setDrain entry (some (.caller c))).setCaller c (.barrier entry))
    else none
  | .barrier entry =>
    some (((s.setDrain entry none).record (.unassigned entry.session)).setCaller c .idle)

def step [NeZero n] (s : AudioWorkerPool n m S) : Label n m S → Option (AudioWorkerPool n m S)
  | .assign c session => s.assign c session
  | .unassign c session => s.unassign c session
  | .caller c => s.call c
  | .worker w result => s.workerLoop w result
  | .stop => some { s with running := false }

end

/-- A pool that has been started. -/
def system (n : ℕ) [NeZero n] (m : ℕ) (S : Type*) [DecidableEq S] :
    System (AudioWorkerPool n m S) (Label n m S) where
  init := ⟨true, 0, 0, fun _ => [], ∅, fun _ => none, fun _ => .checking, fun _ => .idle, 0, []⟩
  step := step

/-! ### What the owners rely on -/

section

variable [DecidableEq S]

def tell (current : S → Option (Entry S)) : Event n S → S → Option (Entry S)
  | .assigned entry => Function.update current entry.session (some entry)
  | .unassigned session => Function.update current session none
  | .called .. => current

/-- The entry of a session that is in the pool: it has been assigned, and not been handed
    back since. -/
def current (log : List (Event n S)) : S → Option (Entry S) :=
  log.foldl tell fun _ => none

/-- A method of a session is called while it is in the pool. -/
def InPool (before : List (Event n S)) : Event n S → Prop
  | .called _ session _ => (current before session).isSome
  | .assigned _ | .unassigned _ => True

end

def Worker.drained : Worker S → Option S
  | draining entry _ => some entry.session
  | _ => none

/-- The entry a worker is about to ask for input. -/
def Worker.probed : Worker S → Option (Entry S)
  | probing entry _ _ => some entry
  | _ => none

/-- A session is drained by one worker at a time, -/
def Exclusive (s : AudioWorkerPool n m S) : Prop :=
  ∀ w w' session, (s.workers w).drained = some session → (s.workers w').drained = some session →
    w = w'

/-- and while it is in the pool. -/
def DrainsInPool [DecidableEq S] (s : AudioWorkerPool n m S) : Prop :=
  ∀ w session, (s.workers w).drained = some session → (current s.log session).isSome

/-- The session a call is about. -/
def Caller.session : Caller n S → Option S
  | idle => none
  | assigning session _ | counting session | scanning session _ => some session
  | found entry | waiting entry | barrier entry => some entry.session

/-- A call about a session begins when there is no other about it, and a session that
    is in the pool is not assigned. -/
def Serial (s : AudioWorkerPool n m S) : Label n m S → Prop
  | .assign _ session =>
    (∀ c, (s.callers c).session ≠ some session) ∧
      ∀ w, ∀ entry ∈ s.sessions w, entry.session ≠ session
  | .unassign _ session => ∀ c, (s.callers c).session ≠ some session
  | _ => True

instance [DecidableEq S] (s : AudioWorkerPool n m S) : DecidablePred s.Serial
  | .assign _ _ => inferInstanceAs (Decidable (_ ∧ _))
  | .unassign _ session =>
    inferInstanceAs (Decidable (∀ c, (s.callers c).session ≠ some session))
  | .caller _ | .worker _ _ | .stop => inferInstanceAs (Decidable True)

/-- The entry of the session that a call hands back with its next step. -/
def Caller.returning : Caller n S → Option (Entry S)
  | barrier entry => some entry
  | _ => none

/-- `unassign` returns when no worker is about to ask the session for input. -/
def Quiet (s : AudioWorkerPool n m S) : Label n m S → Prop
  | .caller c => ∀ entry ∈ (s.callers c).returning, ∀ w, (s.workers w).probed ≠ some entry
  | _ => True

instance [DecidableEq S] (s : AudioWorkerPool n m S) : DecidablePred s.Quiet
  | .caller c => inferInstanceAs
    (Decidable (∀ entry ∈ (s.callers c).returning, ∀ w, (s.workers w).probed ≠ some entry))
  | .assign _ _ | .unassign _ _ | .worker _ _ | .stop => inferInstanceAs (Decidable True)

end AudioWorkerPool

end Yuviz.Gateway
