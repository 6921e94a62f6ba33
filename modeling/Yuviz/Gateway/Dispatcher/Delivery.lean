import Mathlib.Data.List.Perm.Basic
import Yuviz.Gateway.Dispatcher

/-!
# The delivery of events

The subscribers are in a map, and its handlers in a cache that is brought up to date
before an event is delivered, if the map has changed. The handlers are called without
the mutex of the map, while others subscribe and unsubscribe.

The dispatcher promises (`Kept`) that events are delivered in the order they were
queued, each exactly once to each subscriber, and that those dispatched before a call
of `stop` are delivered when it returns. The last is so if the thread has no more to
do at `stop` than it still does (`InTime`): it takes no event once it has found
`running_` cleared, whatever is queued (`delivered_before_stop`).
-/

namespace Yuviz.Gateway

namespace Dispatcher

/-- The delivery of an event. -/
structure Delivery (E H : Type*) where
  event : E
  /-- The handlers of the subscribers there were when the cache was brought up to date. -/
  registered : List H
  /-- The handlers that have been called. -/
  called : List H

/-- The return of a call of `stop`. -/
structure StopReturn where
  /-- The events whose `dispatch` had returned when it was called. -/
  owed : List ℕ
  /-- How many events had been delivered when it returned. -/
  delivered : ℕ

end Dispatcher

open Dispatcher (Delivery StopReturn Worker)

/-- A dispatcher with its subscribers. The events are numbered as they are queued. -/
structure Deliverer (E H : Type*) where
  dispatcher : Dispatcher E
  nextId : UInt32
  /-- The calls of `subscribe` that have an id and are about to take the mutex. -/
  subscribing : List (UInt32 × H)
  subscribers : List (UInt32 × H)
  cacheDirty : Bool
  subscriberCache : List H
  /-- The delivery under way, and the handlers that are still to be called. -/
  current : Option (Delivery E H × List H)
  /-- All events that have been queued. -/
  queued : List E
  /-- The calls of `dispatch` that are about to notify one. -/
  dispatching : List ℕ
  /-- The calls of `dispatch` that have returned. -/
  dispatched : List ℕ
  /-- The deliveries that are complete. -/
  deliveries : List (Delivery E H)
  /-- The events whose `dispatch` had returned when the flag was cleared. -/
  owed : List ℕ
  stopReturns : List StopReturn

namespace Deliverer

inductive Label (E H : Type*)
  | dispatch (event : E)
  | notifyOne (n : ℕ)
  /-- A step of `dispatch_loop` outside of `deliver`, or the return from it. -/
  | worker
  /-- `deliver` brings the cache up to date, the map being in some order. -/
  | refresh (order : List H)
  /-- `deliver` calls the next handler. -/
  | call
  | spurious
  | stop
  | notifyAll
  | join
  | fetchAdd (handler : H)
  | emplace (i : ℕ)
  | unsubscribe (id : UInt32)

variable {E H : Type*}

section

variable (s : Deliverer E H)

def dispatch (event : E) : Option (Deliverer E H) :=
  (s.dispatcher.dispatch event).map fun dispatcher =>
    { s with dispatcher := dispatcher, queued := s.queued ++ [event],
             dispatching := s.queued.length :: s.dispatching }

def notifyOne (n : ℕ) : Option (Deliverer E H) :=
  if n ∈ s.dispatching then
    s.dispatcher.notifyOne.map fun dispatcher =>
      { s with dispatcher := dispatcher, dispatching := s.dispatching.erase n,
               dispatched := n :: s.dispatched }
  else none

def worker : Option (Deliverer E H) :=
  match s.dispatcher.worker, s.current with
  | .delivering _, some (delivery, []) =>
    s.dispatcher.dispatchLoop.map fun dispatcher =>
      { s with dispatcher := dispatcher, current := none,
               deliveries := s.deliveries ++ [delivery] }
  | .delivering _, _ => none
  | _, _ => s.dispatcher.dispatchLoop.map fun dispatcher => { s with dispatcher := dispatcher }

/-- The map is read under its mutex, and only if it has changed. -/
def refresh [DecidableEq H] (order : List H) : Option (Deliverer E H) :=
  match s.dispatcher.worker, s.current with
  | .delivering event, none =>
    let registered := s.subscribers.map Prod.snd
    if order.Perm registered then
      let cache := if s.cacheDirty then order else s.subscriberCache
      some { s with subscriberCache := cache, cacheDirty := false,
                    current := some (⟨event, registered, []⟩, cache) }
    else none
  | _, _ => none

def call : Option (Deliverer E H) :=
  match s.current with
  | some (delivery, handler :: handlers) =>
    let delivery := { delivery with called := delivery.called ++ [handler] }
    some { s with current := some (delivery, handlers) }
  | _ => none

/-- The call that finds the flag cleared already returns at once. -/
def stop : Deliverer E H :=
  if s.dispatcher.running then { s with dispatcher := s.dispatcher.stop, owed := s.dispatched }
  else { s with stopReturns := s.stopReturns ++ [⟨s.dispatched, s.deliveries.length⟩] }

def join : Option (Deliverer E H) :=
  s.dispatcher.join.map fun dispatcher =>
    { s with dispatcher := dispatcher,
             stopReturns := s.stopReturns ++ [⟨s.owed, s.deliveries.length⟩] }

def fetchAdd (handler : H) : Deliverer E H :=
  { s with nextId := s.nextId + 1, subscribing := (s.nextId, handler) :: s.subscribing }

/-- Nothing is inserted under an id that is taken. -/
def emplace (i : ℕ) : Option (Deliverer E H) :=
  s.subscribing[i]?.map fun (id, handler) =>
    { s with subscribing := s.subscribing.eraseIdx i,
             subscribers := if id ∈ s.subscribers.map Prod.fst then s.subscribers
               else (id, handler) :: s.subscribers,
             cacheDirty := true }

def unsubscribe (id : UInt32) : Deliverer E H :=
  { s with subscribers := s.subscribers.filter (·.1 ≠ id), cacheDirty := true }

def step [DecidableEq H] : Label E H → Option (Deliverer E H)
  | .dispatch event => s.dispatch event
  | .notifyOne n => s.notifyOne n
  | .worker => s.worker
  | .refresh order => s.refresh order
  | .call => s.call
  | .spurious =>
    some { s with dispatcher := { s.dispatcher with worker := s.dispatcher.worker.notified } }
  | .stop => some s.stop
  | .notifyAll => s.dispatcher.notifyAll.map fun dispatcher => { s with dispatcher := dispatcher }
  | .join => s.join
  | .fetchAdd handler => some (s.fetchAdd handler)
  | .emplace i => s.emplace i
  | .unsubscribe id => some (s.unsubscribe id)

end

def system (E H : Type*) [DecidableEq H] : System (Deliverer E H) (Label E H) where
  init := { dispatcher := (Dispatcher.system E).init, nextId := 1, subscribing := [],
            subscribers := [], cacheDirty := true, subscriberCache := [], current := none,
            queued := [], dispatching := [], dispatched := [], deliveries := [], owed := [],
            stopReturns := [] }
  step s l := s.step l

/-- The deliveries that have been begun, the last of them perhaps not complete. -/
def begun (s : Deliverer E H) : List (Delivery E H) :=
  s.deliveries ++ (s.current.map Prod.fst).toList

/-- The promise of the dispatcher. -/
structure Kept (s : Deliverer E H) : Prop where
  inOrder : s.begun.map Delivery.event <+: s.queued
  toEach : ∀ delivery ∈ s.deliveries, delivery.called.Perm delivery.registered
  beforeReturn : ∀ r ∈ s.stopReturns, ∀ n ∈ r.owed, n < r.delivered

/-! ### What is taken from the queue -/

end Deliverer

namespace Dispatcher

variable {E : Type*}

/-- The event that has been taken from the queue and is being delivered. -/
def Worker.inHand : Worker E → List E
  | delivering event => [event]
  | _ => []

/-- How many events the thread may still take once the flag is cleared: it takes one more
    if it is past the check of the flag. -/
def Worker.mayTake : Worker E → ℕ
  | locking | testing | deciding | blocked | woken | passed => 1
  | checking | delivering _ | returned => 0

@[simp] theorem Worker.inHand_notified (worker : Worker E) :
    worker.notified.inHand = worker.inHand := by
  cases worker <;> rfl

@[simp] theorem Worker.mayTake_notified (worker : Worker E) :
    worker.notified.mayTake = worker.mayTake := by
  cases worker <;> rfl

/-- A step of the thread that is not the end of a delivery. -/
structure Takes (s s' : Dispatcher E) : Prop where
  stopper : s'.stopper = s.stopper
  queue : s'.worker.inHand ++ s'.queue = s.queue
  /-- Once the flag is cleared, it has as much before it as before, if there is anything. -/
  mayTake : s.running = false →
    s.worker.mayTake ≤ s'.worker.inHand.length + s'.worker.mayTake ∨ s.queue = []

theorem takes {s s' : Dispatcher E} (hworker : ∀ event, s.worker ≠ .delivering event)
    (hst : s.dispatchLoop = some s') : s.Takes s' := by
  rw [dispatchLoop] at hst
  cases hw : s.worker with
  | checking =>
    rw [hw] at hst
    obtain rfl := Option.some.inj hst
    refine ⟨rfl, ?_, fun _ => .inl ?_⟩
    · split
      · rfl
      · rfl
    · rw [hw]
      exact Nat.zero_le _
  | locking | woken =>
    rw [hw] at hst
    dsimp only at hst
    split_ifs at hst
    obtain rfl := Option.some.inj hst
    exact ⟨rfl, rfl, fun _ => .inl (by rw [hw]; exact le_rfl)⟩
  | testing =>
    rw [hw] at hst
    obtain rfl := Option.some.inj hst
    refine ⟨rfl, ?_, fun hstopped => .inl ?_⟩
    · dsimp only
      split_ifs
      · rfl
      · rfl
    · rw [hw, if_pos (by simp [hstopped])]
      exact le_rfl
  | deciding =>
    rw [hw] at hst
    obtain rfl := Option.some.inj hst
    exact ⟨rfl, rfl, fun _ => .inl (by rw [hw]; exact le_rfl)⟩
  | blocked | returned =>
    rw [hw] at hst
    cases hst
  | passed =>
    rw [hw] at hst
    dsimp only at hst
    split at hst
    · next hqueue =>
      split_ifs at hst
      obtain rfl := Option.some.inj hst
      exact ⟨rfl, rfl, fun _ => .inr hqueue⟩
    · next event queue hqueue =>
      obtain rfl := Option.some.inj hst
      exact ⟨rfl, hqueue.symm, fun _ => .inl (by rw [hw]; exact le_rfl)⟩
  | delivering event => exact absurd hw (hworker event)

end Dispatcher

namespace Deliverer

variable {E H : Type*}

/-- The events that have been taken from the queue. -/
def taken (s : Deliverer E H) : ℕ := s.deliveries.length + s.dispatcher.worker.inHand.length

/-- At the call of `stop` that clears the flag, every event whose `dispatch` has returned
    has been taken, or is the next and the thread is past its check of the flag. At any other,
    it has been delivered. -/
def InTime (s : Deliverer E H) : Label E H → Prop
  | .stop => ∀ n ∈ s.dispatched,
    if s.dispatcher.running then n < s.taken + s.dispatcher.worker.mayTake
    else n < s.deliveries.length
  | _ => True

structure Inv (s : Deliverer E H) : Prop where
  cache : s.cacheDirty = false → s.subscriberCache.Perm (s.subscribers.map Prod.snd)
  current : ∀ delivery handlers, s.current = some (delivery, handlers) →
    s.dispatcher.worker = .delivering delivery.event ∧
      (delivery.called ++ handlers).Perm delivery.registered
  queued : s.queued = s.deliveries.map Delivery.event ++
    (s.dispatcher.worker.inHand ++ s.dispatcher.queue)
  numbered : ∀ n, n ∈ s.dispatching ∨ n ∈ s.dispatched ∨ n ∈ s.owed → n < s.queued.length
  toEach : ∀ delivery ∈ s.deliveries, delivery.called.Perm delivery.registered
  owed : s.dispatcher.running = false →
    ∀ n ∈ s.owed, n < s.taken + s.dispatcher.worker.mayTake
  beforeReturn : ∀ r ∈ s.stopReturns, ∀ n ∈ r.owed, n < r.delivered

variable {s s' : Deliverer E H}

/-- The events taken and those in the queue are all that have been queued. -/
theorem Inv.length_queued (h : s.Inv) :
    s.queued.length = s.taken + s.dispatcher.queue.length := by
  simp [h.queued, taken, Nat.add_assoc]

/-- Waking the thread changes nothing. -/
theorem Inv.notified (h : s.Inv) {d : Dispatcher E} (hqueue : d.queue = s.dispatcher.queue)
    (hworker : d.worker = s.dispatcher.worker.notified)
    (hrunning : d.running = s.dispatcher.running) : Inv { s with dispatcher := d } where
  cache := h.cache
  current delivery handlers hcurrent := by
    obtain ⟨hw, hperm⟩ := h.current _ _ hcurrent
    exact ⟨by rw [hworker, hw]; rfl, hperm⟩
  queued := by
    rw [hqueue, hworker, Worker.inHand_notified]
    exact h.queued
  numbered := h.numbered
  toEach := h.toEach
  owed hstopped n hn := by
    have hlt := h.owed (hrunning ▸ hstopped) n hn
    rwa [taken, hworker, Worker.inHand_notified, Worker.mayTake_notified]
  beforeReturn := h.beforeReturn

theorem Inv.dispatch {event : E} (h : s.Inv) (hst : s.dispatch event = some s') : s'.Inv := by
  rw [Deliverer.dispatch, Dispatcher.dispatch] at hst
  obtain ⟨d, hd, rfl⟩ := Option.map_eq_some_iff.1 hst
  split_ifs at hd
  obtain rfl := Option.some.inj hd
  refine ⟨h.cache, h.current, by simp [h.queued], fun n hn => ?_, h.toEach, h.owed,
    h.beforeReturn⟩
  rw [List.length_append]
  rcases hn with hn | hn
  · rcases List.mem_cons.1 hn with rfl | hn
    · exact Nat.lt_succ_self _
    · exact Nat.lt_succ_of_lt (h.numbered n (.inl hn))
  · exact Nat.lt_succ_of_lt (h.numbered n (.inr hn))

theorem Inv.notifyOne {n : ℕ} (h : s.Inv) (hst : s.notifyOne n = some s') : s'.Inv := by
  rw [Deliverer.notifyOne, Dispatcher.notifyOne] at hst
  split_ifs at hst with hn
  · cases hst
  · obtain rfl := Option.some.inj hst
    have h' := h.notified (d := { s.dispatcher with notifying := s.dispatcher.notifying - 1,
                                                    worker := s.dispatcher.worker.notified })
      rfl rfl rfl
    refine ⟨h'.cache, h'.current, h'.queued, fun m hm => h.numbered m ?_, h'.toEach, h'.owed,
      h'.beforeReturn⟩
    rcases hm with hm | hm | hm
    · exact .inl (List.mem_of_mem_erase hm)
    · rcases List.mem_cons.1 hm with rfl | hm
      · exact .inl hn
      · exact .inr (.inl hm)
    · exact .inr (.inr hm)

/-- A step of the thread outside of `deliver`. -/
theorem Inv.takes {d : Dispatcher E} (h : s.Inv)
    (hworker : ∀ event, s.dispatcher.worker ≠ .delivering event)
    (hd : s.dispatcher.dispatchLoop = some d) : Inv { s with dispatcher := d } := by
  obtain ⟨hstopper, hqueue, hmay⟩ := Dispatcher.takes hworker hd
  have hhand : s.dispatcher.worker.inHand = [] := by
    cases hw : s.dispatcher.worker with
    | delivering event => exact absurd hw (hworker event)
    | _ => rfl
  refine ⟨h.cache, fun delivery handlers hcurrent => ?_, ?_, h.numbered, h.toEach, ?_,
    h.beforeReturn⟩
  · exact absurd (h.current _ _ hcurrent).1 (hworker _)
  · rw [hqueue, h.queued, hhand, List.nil_append]
  · intro hstopped n hn
    have hrunning : s.dispatcher.running = false := by
      rwa [Dispatcher.running, hstopper] at hstopped
    have hlt := h.owed hrunning n hn
    have hall := h.numbered n (.inr (.inr hn))
    rw [h.length_queued] at hall
    simp only [taken, hhand, List.length_nil, Nat.add_zero] at hlt hall ⊢
    rcases hmay hrunning with hle | hempty
    · omega
    · rw [hempty, List.length_nil] at hall
      omega

theorem Inv.worker (h : s.Inv) (hst : s.worker = some s') : s'.Inv := by
  rw [Deliverer.worker] at hst
  split at hst
  · next event delivery hw hcurrent =>
    obtain ⟨d, hd, rfl⟩ := Option.map_eq_some_iff.1 hst
    obtain ⟨hdelivering, hperm⟩ := h.current _ _ hcurrent
    rw [Dispatcher.dispatchLoop, hdelivering] at hd
    obtain rfl := Option.some.inj hd
    refine ⟨h.cache, by simp, ?_, h.numbered, fun delivery' hmem => ?_, ?_, h.beforeReturn⟩
    · rw [h.queued, hdelivering]
      simp [Worker.inHand]
    · rcases List.mem_append.1 hmem with hmem | hmem
      · exact h.toEach _ hmem
      · rw [List.mem_singleton.1 hmem]
        simpa using hperm
    · intro hstopped n hn
      have hlt := h.owed hstopped n hn
      simpa [taken, hdelivering, Worker.inHand, Worker.mayTake] using hlt
  · cases hst
  · next hw _ =>
    obtain ⟨d, hd, rfl⟩ := Option.map_eq_some_iff.1 hst
    exact h.takes hw hd

theorem Inv.refresh [DecidableEq H] {order : List H} (h : s.Inv)
    (hst : s.refresh order = some s') : s'.Inv := by
  rw [Deliverer.refresh] at hst
  split at hst
  · next event hw hcurrent =>
    dsimp only at hst
    split_ifs at hst with hperm hdirty
    · obtain rfl := Option.some.inj hst
      exact ⟨fun _ => hperm, by rintro _ _ ⟨⟩; exact ⟨hw, hperm⟩, h.queued, h.numbered,
        h.toEach, h.owed, h.beforeReturn⟩
    · obtain rfl := Option.some.inj hst
      have hcache := h.cache (Bool.eq_false_of_not_eq_true hdirty)
      exact ⟨fun _ => hcache, by rintro _ _ ⟨⟩; exact ⟨hw, hcache⟩, h.queued, h.numbered,
        h.toEach, h.owed, h.beforeReturn⟩
  · cases hst

theorem Inv.call (h : s.Inv) (hst : s.call = some s') : s'.Inv := by
  rw [Deliverer.call] at hst
  split at hst
  · next delivery handler handlers hcurrent =>
    obtain rfl := Option.some.inj hst
    obtain ⟨hw, hperm⟩ := h.current _ _ hcurrent
    refine ⟨h.cache, ?_, h.queued, h.numbered, h.toEach, h.owed, h.beforeReturn⟩
    rintro _ _ ⟨⟩
    exact ⟨hw, by simpa using hperm⟩
  · cases hst

theorem Inv.stop (h : s.Inv) (hin : s.InTime (.stop : Label E H)) : s.stop.Inv := by
  rw [Deliverer.stop]
  split_ifs with hrunning
  · simp only [InTime, hrunning, if_true] at hin
    rw [Dispatcher.stop, if_pos hrunning]
    refine ⟨h.cache, h.current, h.queued, fun n hn => h.numbered n ?_, h.toEach,
      fun _ => hin, h.beforeReturn⟩
    rcases hn with hn | hn | hn
    · exact .inl hn
    · exact .inr (.inl hn)
    · exact .inr (.inl hn)
  · simp only [InTime, hrunning] at hin
    refine ⟨h.cache, h.current, h.queued, h.numbered, h.toEach, h.owed, fun r hr => ?_⟩
    rcases List.mem_append.1 hr with hr | hr
    · exact h.beforeReturn r hr
    · rw [List.mem_singleton.1 hr]
      exact hin

theorem Inv.join (h : s.Inv) (hst : s.join = some s') : s'.Inv := by
  rw [Deliverer.join, Dispatcher.join] at hst
  obtain ⟨d, hd, rfl⟩ := Option.map_eq_some_iff.1 hst
  split at hd
  · next hjoining hreturned =>
    obtain rfl := Option.some.inj hd
    have howed := h.owed (by simp [Dispatcher.running, hjoining])
    refine ⟨h.cache, h.current, h.queued, h.numbered, h.toEach, fun _ => howed, fun r hr => ?_⟩
    rcases List.mem_append.1 hr with hr | hr
    · exact h.beforeReturn r hr
    · rw [List.mem_singleton.1 hr]
      simpa [taken, hreturned, Worker.inHand, Worker.mayTake] using howed
  · cases hd

/-- A change of the map leaves the cache to be brought up to date. -/
theorem Inv.resubscribed (h : s.Inv) (subscribers : List (UInt32 × H))
    (subscribing : List (UInt32 × H)) :
    Inv { s with subscribers := subscribers, subscribing := subscribing, cacheDirty := true } :=
  ⟨by simp, h.current, h.queued, h.numbered, h.toEach, h.owed, h.beforeReturn⟩

theorem Inv.step [DecidableEq H] {l : Label E H} (h : s.Inv) (hin : s.InTime l)
    (hst : s.step l = some s') : s'.Inv := by
  cases l with
  | dispatch event => exact h.dispatch hst
  | notifyOne n => exact h.notifyOne hst
  | worker => exact h.worker hst
  | refresh order => exact h.refresh hst
  | call => exact h.call hst
  | spurious =>
    obtain rfl := Option.some.inj hst
    exact h.notified rfl rfl rfl
  | stop =>
    obtain rfl := Option.some.inj hst
    exact h.stop hin
  | notifyAll =>
    rw [Deliverer.step, Dispatcher.notifyAll] at hst
    obtain ⟨d, hd, rfl⟩ := Option.map_eq_some_iff.1 hst
    split_ifs at hd with hexchanged
    obtain rfl := Option.some.inj hd
    exact h.notified rfl rfl (by simp [Dispatcher.running, hexchanged])
  | join => exact h.join hst
  | fetchAdd handler =>
    obtain rfl := Option.some.inj hst
    exact ⟨h.cache, h.current, h.queued, h.numbered, h.toEach, h.owed, h.beforeReturn⟩
  | emplace i =>
    rw [Deliverer.step, emplace] at hst
    obtain ⟨x, -, rfl⟩ := Option.map_eq_some_iff.1 hst
    exact h.resubscribed _ _
  | unsubscribe id =>
    obtain rfl := Option.some.inj hst
    exact h.resubscribed _ _

theorem Inv.init [DecidableEq H] : Inv (system E H).init :=
  ⟨by simp [system], by simp [system], rfl, by simp [system], by simp [system],
    by simp [system], by simp [system]⟩

theorem Inv.kept (h : s.Inv) : s.Kept where
  inOrder := by
    rw [h.queued, begun, List.map_append, List.prefix_append_right_inj]
    cases hcurrent : s.current with
    | none => exact List.nil_prefix
    | some p =>
      rw [(h.current p.1 p.2 hcurrent).1]
      exact List.prefix_append _ _
  toEach := h.toEach
  beforeReturn := h.beforeReturn

/-- In the runs in which every call of `stop` is in time, the promise is kept. -/
theorem delivered_before_stop [DecidableEq H] (hs : (system E H).ReachableIf InTime s) : s.Kept :=
  (hs.invariant Inv.init fun _ _ _ h hin hst => h.step hin hst).kept

instance : DecidablePred (InTime s)
  | .stop => inferInstanceAs (Decidable (∀ n ∈ s.dispatched,
      if s.dispatcher.running then n < s.taken + s.dispatcher.worker.mayTake
      else n < s.deliveries.length))
  | .dispatch _ | .notifyOne _ | .worker | .refresh _ | .call | .spurious | .notifyAll | .join
  | .fetchAdd _ | .emplace _ | .unsubscribe _ => inferInstanceAs (Decidable True)

/-- There is a subscriber, and an event is dispatched. -/
def oneEvent : List (Label ℕ ℕ) := [.fetchAdd 7, .emplace 0, .dispatch 40, .notifyOne 0]

/-- The dispatcher is stopped when the thread is about to check the flag. -/
theorem not_delivered_before_stop :
    ¬ ∀ s : Deliverer ℕ ℕ, (system ℕ ℕ).Reachable s → s.Kept := by
  intro h
  have hrun : ((system ℕ ℕ).exec (system ℕ ℕ).init
      (oneEvent ++ ([.stop, .worker, .notifyAll, .join] : List (Label ℕ ℕ)))).map
        (fun s => s.stopReturns.map fun r => (r.owed, r.delivered)) = some [([0], 0)] := by
    decide
  obtain ⟨s, hs, heq⟩ := Option.map_eq_some_iff.1 hrun
  obtain ⟨r, hr, hr'⟩ := List.map_eq_singleton_iff.1 heq
  obtain ⟨howed, hdelivered⟩ := Prod.mk.inj hr'
  have hlt := (h s (.exec .init hs)).beforeReturn r (by simp [hr]) 0 (by simp [howed])
  rw [hdelivered] at hlt
  cases hlt

/-- The dispatcher is stopped when the thread has delivered the event. -/
theorem delivered_before_stop_one : ∃ s : Deliverer ℕ ℕ, (system ℕ ℕ).ReachableIf InTime s ∧
    s.deliveries.map (fun d => (d.event, d.called)) = [(40, [7])] ∧ s.stopReturns ≠ [] ∧
      s.Kept := by
  have hrun : ((system ℕ ℕ).execIf InTime (system ℕ ℕ).init
      (oneEvent ++ ([.worker, .worker, .worker, .worker, .refresh [7], .call, .worker, .stop,
        .worker, .notifyAll, .join] : List (Label ℕ ℕ)))).map
          (fun s => (s.deliveries.map fun d => (d.event, d.called), s.stopReturns.length)) =
        some ([(40, [7])], 1) := by
    decide
  obtain ⟨s, hs, heq⟩ := Option.map_eq_some_iff.1 hrun
  obtain ⟨hdeliveries, hlength⟩ := Prod.mk.inj heq
  have hreach : (system ℕ ℕ).ReachableIf InTime s := .execIf .init hs
  refine ⟨s, hreach, hdeliveries, fun hnil => ?_, delivered_before_stop hreach⟩
  rw [hnil] at hlength
  cases hlength

end Deliverer

end Yuviz.Gateway
