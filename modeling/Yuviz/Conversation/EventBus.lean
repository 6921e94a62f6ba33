import Mathlib
import Yuviz.Python.Dict
import Yuviz.System

/-!
# The bus of a conversation

`services/conversation/event_bus.py`: events are queued, and one task takes them in turn
and calls the handlers of their type, one after the other, in the order in which they
have subscribed. It goes through the list they are appended to, so that whoever
subscribes while an event of the type is delivered is called for it as well.

When the task is cancelled, or a handler is, the rest of a delivery is not made, and the
event is never finished. So `drain`, which waits until every event is, returns only when
every handler has been called, once and in order, with every event that concerns it
(`drained`).
-/

namespace Yuviz.Conversation

open Python

/-- Where `_drain_loop` is. -/
inductive DrainLoop (E : Type*)
  /-- It waits for an event. -/
  | waiting
  /-- The handler with the index has been called with the event. -/
  | delivering (event : E) (i : ℕ)
  | done

structure EventBus (E τ η : Type*) where
  queue : List E
  unfinished : ℕ
  subscribers : Dict τ (List η)
  task : Option (DrainLoop E)
  /-- The task is to be cancelled where it waits. -/
  cancelling : Bool
  /-- What has been queued, and the number of events that are no longer delivered. -/
  accepted : List E
  past : ℕ
  /-- For each handler of a type, the first event that is not over when it subscribes. -/
  since : τ → List ℕ
  /-- The calls: the number of the event, and the index of the handler. -/
  calls : List (ℕ × ℕ)
  /-- The events whose delivery has been broken off. -/
  interrupted : List ℕ

namespace EventBus

variable {E τ η : Type*} [DecidableEq τ]

def init : EventBus E τ η := ⟨[], 0, [], none, false, [], 0, fun _ => [], [], []⟩

def handlers (s : EventBus E τ η) (type : τ) : List η := (s.subscribers.get? type).getD []

/-- `maxsize` is no bound unless it is positive. -/
def isFull (queueSize : ℤ) (s : EventBus E τ η) : Bool :=
  0 < queueSize ∧ queueSize ≤ s.queue.length

def putNowait (s : EventBus E τ η) (event : E) : EventBus E τ η :=
  { s with
    queue := s.queue ++ [event]
    unfinished := s.unfinished + 1
    accepted := s.accepted ++ [event] }

/-- An event that does not fit is dropped. -/
def publish (queueSize : ℤ) (s : EventBus E τ η) (event : E) : EventBus E τ η :=
  if s.isFull queueSize then s else s.putNowait event

def subscribe (s : EventBus E τ η) (type : τ) (handler : η) : EventBus E τ η :=
  { s with
    subscribers := s.subscribers.set type (s.handlers type ++ [handler])
    since := Function.update s.since type (s.since type ++ [s.past]) }

def start (s : EventBus E τ η) : EventBus E τ η :=
  match s.task with
  | none => { s with task := some .waiting }
  | some _ => s

/-- `stop`, until it waits for the task. -/
def stop (s : EventBus E τ η) : EventBus E τ η :=
  match s.task with
  | none | some .done => s
  | some .waiting | some (.delivering _ _) => { s with cancelling := true }

def taskDone (s : EventBus E τ η) : EventBus E τ η :=
  { s with unfinished := s.unfinished - 1, task := some .waiting, past := s.past + 1 }

/-- A handler is called. -/
def call (s : EventBus E τ η) (event : E) (i : ℕ) : EventBus E τ η :=
  { s with task := some (.delivering event i), calls := s.calls ++ [(s.past, i)] }

/-- The next handler is called, if there is one. -/
def callNext (type : E → τ) (s : EventBus E τ η) (event : E) (i : ℕ) : EventBus E τ η :=
  if i < (s.handlers (type event)).length then s.call event i else s.taskDone

def take (type : E → τ) (s : EventBus E τ η) : Option (EventBus E τ η) :=
  match s.task, s.queue with
  | some .waiting, event :: queue =>
    if s.cancelling then none else some ({ s with queue := queue }.callNext type event 0)
  | _, _ => none

/-- A handler returns, or fails; one that is to be cancelled may do so as well. -/
def handled (type : E → τ) (s : EventBus E τ η) : Option (EventBus E τ η) :=
  match s.task with
  | some (.delivering event i) => some ({ s with cancelling := false }.callNext type event (i + 1))
  | _ => none

/-- The task is over: `CancelledError` is no `Exception`, so that a handler that something it waits
    for has been cancelled under takes the task with it. -/
def cancelled (s : EventBus E τ η) : Option (EventBus E τ η) :=
  match s.task with
  | some (.delivering _ _) =>
    some { s with
      task := some .done
      cancelling := false
      past := s.past + 1
      interrupted := s.interrupted ++ [s.past] }
  | some .waiting =>
    if s.cancelling then some { s with task := some .done, cancelling := false } else none
  | _ => none

/-- `stop`, when the task is over. -/
def stopped (s : EventBus E τ η) : Option (EventBus E τ η) :=
  match s.task with
  | some .done => some { s with task := none }
  | _ => none

inductive Label (E τ η : Type*)
  | publish (event : E)
  /-- `publish_async`, which waits until the event fits. -/
  | publishAsync (event : E)
  | subscribe (type : τ) (handler : η)
  | start
  | stop
  | take
  | handled
  | cancelled
  | stopped

/-- A bus whose events have the given types. -/
def bus (η : Type*) (queueSize : ℤ) (type : E → τ) : System (EventBus E τ η) (Label E τ η) where
  init := init
  step s
    | .publish event => some (s.publish queueSize event)
    | .publishAsync event => if s.isFull queueSize then none else some (s.putNowait event)
    | .subscribe type handler => some (s.subscribe type handler)
    | .start => some s.start
    | .stop => some s.stop
    | .take => s.take type
    | .handled => s.handled type
    | .cancelled => s.cancelled
    | .stopped => s.stopped

/-- An event is being delivered. -/
def busy (s : EventBus E τ η) : ℕ :=
  match s.task with
  | some (.delivering _ _) => 1
  | _ => 0

/-- The handler with the index is one for the event with the number: it has subscribed to its type
    before its delivery was over. -/
def Concerns (type : E → τ) (s : EventBus E τ η) (c : ℕ × ℕ) : Prop :=
  ∃ event n, s.accepted[c.1]? = some event ∧ (s.since (type event))[c.2]? = some n ∧ n ≤ c.1

/-! ### What is called -/

variable {queueSize : ℤ} {type : E → τ} {s s' : EventBus E τ η} {l : Label E τ η} {event : E}
  {i : ℕ}

structure Inv (type : E → τ) (s : EventBus E τ η) : Prop where
  queue : s.accepted.drop (s.past + s.busy) = s.queue
  past_le : s.past + s.busy ≤ s.accepted.length
  unfinished : s.unfinished = s.queue.length + s.busy + s.interrupted.length
  since_length : ∀ t, (s.since t).length = (s.handlers t).length
  since_le : ∀ t, ∀ n ∈ s.since t, n ≤ s.past
  current : ∀ event i, s.task = some (.delivering event i) →
    s.accepted[s.past]? = some event ∧ i < (s.handlers (type event)).length ∧
      ∀ k ≤ i, (s.past, k) ∈ s.calls
  sound : ∀ c ∈ s.calls, s.Concerns type c
  made : ∀ c ∈ s.calls, c.1 < s.past ∨
    ∃ event i, s.task = some (.delivering event i) ∧ c.1 = s.past ∧ c.2 ≤ i
  complete : ∀ c, c.1 < s.past → c.1 ∉ s.interrupted → s.Concerns type c → c ∈ s.calls
  ordered : s.calls.Pairwise (Prod.Lex (· < ·) (· < ·))

theorem inv_init : Inv type (init : EventBus E τ η) where
  queue := rfl
  past_le := le_rfl
  unfinished := rfl
  since_length _ := rfl
  since_le _ _ h := absurd h List.not_mem_nil
  current _ _ h := by cases h
  sound _ h := absurd h List.not_mem_nil
  made _ h := absurd h List.not_mem_nil
  complete _ h := absurd h (Nat.not_lt_zero _)
  ordered := .nil

/-- An event that is put is still to be delivered, -/
theorem Inv.putNowait (hs : Inv type s) : Inv type (s.putNowait event) where
  queue := by
    change (s.accepted ++ [event]).drop (s.past + s.busy) = s.queue ++ [event]
    rw [List.drop_append_of_le_length hs.past_le, hs.queue]
  past_le := by
    have := hs.past_le
    simp only [EventBus.putNowait, List.length_append]
    exact this.trans (Nat.le_add_right _ _)
  unfinished := by
    have := hs.unfinished
    simp only [EventBus.putNowait, List.length_append, List.length_singleton, busy] at this ⊢
    omega
  since_length := hs.since_length
  since_le := hs.since_le
  current event' i h := by
    obtain ⟨hget, hrest⟩ := hs.current event' i h
    exact ⟨List.getElem?_append_left (List.getElem?_eq_some_iff.1 hget).1 ▸ hget, hrest⟩
  sound c hc := by
    obtain ⟨event', n, hget, hrest⟩ := hs.sound c hc
    exact ⟨event', n, List.getElem?_append_left (List.getElem?_eq_some_iff.1 hget).1 ▸ hget, hrest⟩
  made := hs.made
  complete c hc hno := by
    rintro ⟨event', n, hget, hrest⟩
    have hlt : c.1 < s.accepted.length := by
      have := hs.past_le
      have : c.1 < s.past := hc
      omega
    refine hs.complete c hc hno ⟨event', n, ?_, hrest⟩
    rwa [show (s.putNowait event).accepted = s.accepted ++ [event] from rfl,
      List.getElem?_append_left hlt] at hget
  ordered := hs.ordered

theorem handlers_subscribe {t t' : τ} {h : η} : (s.subscribe t h).handlers t' =
    if t' = t then s.handlers t ++ [h] else s.handlers t' := by
  rw [subscribe, handlers, Dict.get?_set]
  split_ifs
  · rfl
  · rfl

theorem since_subscribe {t t' : τ} {h : η} : (s.subscribe t h).since t' =
    if t' = t then s.since t ++ [s.past] else s.since t' := by
  rw [subscribe]
  exact Function.update_apply _ _ _ _

/-- Whoever subscribes now has nothing to do with what is over. -/
theorem concerns_subscribe {t : τ} {h : η} {c : ℕ × ℕ} (hc : c.1 < s.past) :
    (s.subscribe t h).Concerns type c ↔ s.Concerns type c := by
  constructor
  · rintro ⟨event, n, hget, hn, hle⟩
    refine ⟨event, n, hget, ?_, hle⟩
    rw [since_subscribe] at hn
    split_ifs at hn with ht
    · rw [ht]
      rcases lt_or_ge c.2 (s.since t).length with hlt | hge
      · rwa [List.getElem?_append_left hlt] at hn
      · rw [List.getElem?_append_right hge] at hn
        have := List.mem_of_getElem? hn
        rw [List.mem_singleton] at this
        omega
    · exact hn
  · rintro ⟨event, n, hget, hn, hle⟩
    refine ⟨event, n, hget, ?_, hle⟩
    rw [since_subscribe]
    split_ifs with ht
    · rw [ht] at hn
      exact List.getElem?_append_left (List.getElem?_eq_some_iff.1 hn).1 ▸ hn
    · exact hn

theorem Concerns.subscribe {t : τ} {h : η} {c : ℕ × ℕ} (hc : s.Concerns type c) :
    (s.subscribe t h).Concerns type c := by
  obtain ⟨event, n, hget, hn, hle⟩ := hc
  refine ⟨event, n, hget, ?_, hle⟩
  rw [since_subscribe]
  split_ifs with ht
  · rw [ht] at hn
    exact List.getElem?_append_left (List.getElem?_eq_some_iff.1 hn).1 ▸ hn
  · exact hn

/-- and a handler that is new is concerned by the events to come only. -/
theorem Inv.subscribe {t : τ} {h : η} (hs : Inv type s) : Inv type (s.subscribe t h) where
  queue := hs.queue
  past_le := hs.past_le
  unfinished := hs.unfinished
  since_length t' := by
    rw [since_subscribe, handlers_subscribe]
    split_ifs
    · rw [List.length_append, List.length_append, hs.since_length]
      rfl
    · exact hs.since_length t'
  since_le t' n hn := by
    rw [since_subscribe] at hn
    split_ifs at hn
    · rcases List.mem_append.1 hn with hn | hn
      · exact hs.since_le t n hn
      · exact (List.mem_singleton.1 hn).le
    · exact hs.since_le t' n hn
  current event i htask := by
    obtain ⟨hget, hi, hcalls⟩ := hs.current event i htask
    refine ⟨hget, ?_, hcalls⟩
    rw [handlers_subscribe]
    split_ifs with ht
    · rw [ht] at hi
      rw [List.length_append]
      exact hi.trans_le (Nat.le_add_right _ _)
    · exact hi
  sound c hc := (hs.sound c hc).subscribe
  made := hs.made
  complete c hc hno h := hs.complete c hc hno ((concerns_subscribe (s := s) hc).1 h)
  ordered := hs.ordered

/-- The event has been taken from the queue, and the handlers before the index have been called. -/
structure Delivers (type : E → τ) (s : EventBus E τ η) (event : E) (i : ℕ) : Prop where
  queue : s.accepted.drop (s.past + 1) = s.queue
  get : s.accepted[s.past]? = some event
  unfinished : s.unfinished = s.queue.length + 1 + s.interrupted.length
  since_length : ∀ t, (s.since t).length = (s.handlers t).length
  since_le : ∀ t, ∀ n ∈ s.since t, n ≤ s.past
  called : ∀ k < i, (s.past, k) ∈ s.calls
  sound : ∀ c ∈ s.calls, s.Concerns type c
  made : ∀ c ∈ s.calls, c.1 < s.past ∨ c.1 = s.past ∧ c.2 < i
  complete : ∀ c, c.1 < s.past → c.1 ∉ s.interrupted → s.Concerns type c → c ∈ s.calls
  ordered : s.calls.Pairwise (Prod.Lex (· < ·) (· < ·))

theorem Delivers.length_lt (h : Delivers type s event i) : s.past < s.accepted.length :=
  (List.getElem?_eq_some_iff.1 h.get).1

/-- A handler of the event is called, and the next one is to be. -/
theorem Delivers.call (h : Delivers type s event i) (hi : i < (s.handlers (type event)).length) :
    Inv type (s.call event i) where
  queue := h.queue
  past_le := h.length_lt
  unfinished := h.unfinished
  since_length := h.since_length
  since_le := h.since_le
  current := by
    rintro _ _ ⟨⟩
    refine ⟨h.get, hi, fun k hk => ?_⟩
    rcases hk.lt_or_eq with hk | rfl
    · exact List.mem_append_left _ (h.called k hk)
    · exact List.mem_append_right _ (List.mem_singleton_self _)
  sound c hc := by
    rcases List.mem_append.1 hc with hc | hc
    · exact h.sound c hc
    · obtain rfl := List.mem_singleton.1 hc
      have hlt : i < (s.since (type event)).length := by rwa [h.since_length]
      exact ⟨event, _, h.get, List.getElem?_eq_getElem hlt, h.since_le _ _ (List.getElem_mem hlt)⟩
  made c hc := by
    rcases List.mem_append.1 hc with hc | hc
    · rcases h.made c hc with hlt | ⟨heq, hlt⟩
      · exact .inl hlt
      · exact .inr ⟨event, i, rfl, heq, hlt.le⟩
    · obtain rfl := List.mem_singleton.1 hc
      exact .inr ⟨event, i, rfl, rfl, le_rfl⟩
  complete c hc hno hconcerns := List.mem_append_left _ (h.complete c hc hno hconcerns)
  ordered := by
    refine List.pairwise_append.2 ⟨h.ordered, List.pairwise_singleton _ _, fun c hc c' hc' => ?_⟩
    obtain rfl := List.mem_singleton.1 hc'
    rcases h.made c hc with hlt | ⟨heq, hlt⟩
    · exact Prod.lex_def.2 (.inl hlt)
    · exact Prod.lex_def.2 (.inr ⟨heq, hlt⟩)

/-- What is over has been delivered to every handler, as there is none left. -/
theorem Delivers.taskDone (h : Delivers type s event i)
    (hi : (s.handlers (type event)).length ≤ i) : Inv type s.taskDone where
  queue := h.queue
  past_le := h.length_lt
  unfinished := by
    have := h.unfinished
    simp only [EventBus.taskDone, busy]
    omega
  since_length := h.since_length
  since_le t n hn := (h.since_le t n hn).trans (Nat.le_succ _)
  current := by rintro _ _ ⟨⟩
  sound := h.sound
  made c hc := by
    left
    rcases h.made c hc with hlt | ⟨heq, -⟩
    · exact Nat.lt_succ_of_lt hlt
    · exact heq ▸ Nat.lt_succ_self _
  complete c hc hno hconcerns := by
    rcases Nat.lt_succ_iff_lt_or_eq.1 hc with hlt | heq
    · exact h.complete c hlt hno hconcerns
    · obtain ⟨event', n, hget, hn, -⟩ := hconcerns
      obtain ⟨p, k⟩ := c
      obtain rfl : p = s.past := heq
      obtain rfl := Option.some.inj (h.get.symm.trans hget)
      have hk := (List.getElem?_eq_some_iff.1 hn).1
      exact h.called k ((hk.trans_eq (h.since_length _)).trans_le hi)
  ordered := h.ordered

theorem Delivers.callNext (h : Delivers type s event i) : Inv type (s.callNext type event i) := by
  rw [EventBus.callNext]
  split_ifs with hi
  · exact h.call hi
  · exact h.taskDone (not_lt.1 hi)

/-- The first event of the queue is the next to be delivered. -/
theorem Inv.take (hs : Inv type s) (h : s.take type = some s') : Inv type s' := by
  rw [EventBus.take.eq_def] at h
  split at h
  · rename_i event queue htask hqueue
    have hbusy : s.busy = 0 := by rw [busy, htask]
    split_ifs at h
    obtain rfl := Option.some.inj h
    have hdrop := hs.queue
    rw [hbusy, hqueue] at hdrop
    have hget : s.accepted[s.past]? = some event := by
      have := congrArg (·[0]?) hdrop
      simpa using this
    have hunfinished := hs.unfinished
    rw [hbusy, hqueue, List.length_cons] at hunfinished
    refine Delivers.callNext ⟨?_, hget, hunfinished, hs.since_length, hs.since_le, ?_, hs.sound, ?_,
      hs.complete, hs.ordered⟩
    · rw [← List.drop_drop]
      exact congrArg (List.drop 1) hdrop
    · intro k hk
      exact absurd hk (Nat.not_lt_zero k)
    · intro c hc
      rcases hs.made c hc with hlt | ⟨event', i, htask', -⟩
      · exact .inl hlt
      · rw [htask] at htask'
        cases htask'
  · cases h

/-- A handler that has returned lets the next one be called. -/
theorem Inv.handled (hs : Inv type s) (h : s.handled type = some s') : Inv type s' := by
  rw [EventBus.handled.eq_def] at h
  split at h
  · rename_i event i htask
    have hbusy : s.busy = 1 := by rw [busy, htask]
    obtain rfl := Option.some.inj h
    obtain ⟨hget, -, hcalled⟩ := hs.current event i htask
    have hdrop := hs.queue
    have hunfinished := hs.unfinished
    rw [hbusy] at hdrop hunfinished
    refine Delivers.callNext ⟨hdrop, hget, hunfinished, hs.since_length, hs.since_le,
      fun k hk => hcalled k (Nat.lt_succ_iff.1 hk), hs.sound, fun c hc => ?_, hs.complete,
      hs.ordered⟩
    rcases hs.made c hc with hlt | ⟨event', i', htask', heq, hle⟩
    · exact .inl hlt
    · rw [htask] at htask'
      cases htask'
      exact .inr ⟨heq, Nat.lt_succ_of_le hle⟩
  · cases h

/-- Whether an event is delivered is all that matters of the task. -/
theorem Inv.of_idle {task : Option (DrainLoop E)} {cancelling : Bool} (hs : Inv type s)
    (hidle : s.busy = 0) (htask : ∀ event i, task ≠ some (.delivering event i)) :
    Inv type { s with task := task, cancelling := cancelling } := by
  have hbusy : EventBus.busy { s with task := task, cancelling := cancelling } = s.busy := by
    rw [hidle, busy]
    split
    · exact absurd ‹_› (htask _ _)
    · rfl
  refine ⟨?_, ?_, ?_, hs.since_length, hs.since_le, ?_, hs.sound, ?_, hs.complete, hs.ordered⟩
  · rw [hbusy]
    exact hs.queue
  · rw [hbusy]
    exact hs.past_le
  · rw [hbusy]
    exact hs.unfinished
  · intro event i h
    exact absurd h (htask event i)
  · intro c hc
    rcases hs.made c hc with hlt | ⟨event, i, h, -⟩
    · exact .inl hlt
    · rw [busy, h] at hidle
      cases hidle

theorem Inv.cancelled (hs : Inv type s) (h : s.cancelled = some s') : Inv type s' := by
  rw [EventBus.cancelled.eq_def] at h
  split at h
  · rename_i event i htask
    have hbusy : s.busy = 1 := by rw [busy, htask]
    obtain rfl := Option.some.inj h
    have hle := hs.past_le
    have hdrop := hs.queue
    have hunfinished := hs.unfinished
    rw [hbusy] at hdrop hunfinished hle
    refine ⟨hdrop, hle, ?_, hs.since_length,
      fun t n hn => (hs.since_le t n hn).trans (Nat.le_succ _), ?_, hs.sound,
      fun c hc => .inl ?_, fun c hc hno hconcerns => ?_, hs.ordered⟩
    · rw [hunfinished, List.length_append]
      simp only [busy, List.length_singleton]
      omega
    · rintro _ _ ⟨⟩
    · rcases hs.made c hc with hlt | ⟨-, -, -, heq, -⟩
      · exact Nat.lt_succ_of_lt hlt
      · exact heq ▸ Nat.lt_succ_self _
    · rw [List.mem_append, List.mem_singleton, not_or] at hno
      rcases Nat.lt_succ_iff_lt_or_eq.1 hc with hlt | heq
      · exact hs.complete c hlt hno.1 hconcerns
      · exact absurd heq hno.2
  · rename_i htask
    have hbusy : s.busy = 0 := by rw [busy, htask]
    split_ifs at h
    obtain rfl := Option.some.inj h
    exact hs.of_idle hbusy (by simp)
  · cases h

theorem Inv.start (hs : Inv type s) : Inv type s.start := by
  rw [EventBus.start.eq_def]
  split
  · rename_i htask
    exact hs.of_idle (by rw [busy, htask]) (by simp)
  · exact hs

theorem Inv.stop (hs : Inv type s) : Inv type s.stop := by
  have hcancelling : Inv type { s with cancelling := true } :=
    ⟨hs.queue, hs.past_le, hs.unfinished, hs.since_length, hs.since_le, hs.current, hs.sound,
      hs.made, hs.complete, hs.ordered⟩
  rw [EventBus.stop.eq_def]
  split
  · exact hs
  · exact hs
  · exact hcancelling
  · exact hcancelling

/-- The bus has no task when it has been stopped. -/
theorem Inv.stopped (hs : Inv type s) (h : s.stopped = some s') : Inv type s' := by
  rw [EventBus.stopped.eq_def] at h
  split at h
  · rename_i htask
    obtain rfl := Option.some.inj h
    exact hs.of_idle (by rw [busy, htask]) (by simp)
  · cases h

theorem Inv.step (hs : Inv type s) (h : (bus η queueSize type).step s l = some s') :
    Inv type s' := by
  cases l with
  | publish event =>
    obtain rfl := Option.some.inj h
    rw [publish]
    split_ifs
    · exact hs
    · exact hs.putNowait
  | publishAsync event =>
    simp only [bus] at h
    split_ifs at h
    obtain rfl := Option.some.inj h
    exact hs.putNowait
  | subscribe t handler => exact Option.some.inj h ▸ hs.subscribe
  | start => exact Option.some.inj h ▸ hs.start
  | stop => exact Option.some.inj h ▸ hs.stop
  | take => exact hs.take h
  | handled => exact hs.handled h
  | cancelled => exact hs.cancelled h
  | stopped => exact hs.stopped h

/-- Every call is for a handler that the event concerns, and they are made one after the other,
    event by event in the order of the queue, handler by handler in the order they subscribed in,
    so none twice. Nothing is unfinished just when nothing is queued or being delivered, and no
    delivery was broken off; every handler has been called then with every event that concerns
    it. -/
theorem drained (hs : (bus η queueSize type).Reachable s) :
    s.calls.Pairwise (Prod.Lex (· < ·) (· < ·)) ∧ (∀ c ∈ s.calls, s.Concerns type c) ∧
      (s.unfinished = 0 ↔ s.queue = [] ∧ s.busy = 0 ∧ s.interrupted = []) ∧
      (s.unfinished = 0 → ∀ c, s.Concerns type c → c ∈ s.calls) := by
  have hinv : Inv type s := hs.invariant inv_init fun _ _ _ => Inv.step
  have hunfinished : s.unfinished = 0 ↔ s.queue = [] ∧ s.busy = 0 ∧ s.interrupted = [] := by
    rw [hinv.unfinished, Nat.add_eq_zero_iff, Nat.add_eq_zero_iff, List.length_eq_zero_iff,
      List.length_eq_zero_iff, and_assoc]
  refine ⟨hinv.ordered, hinv.sound, hunfinished, fun h c hc => ?_⟩
  obtain ⟨hqueue, hbusy, hinterrupted⟩ := hunfinished.1 h
  have hdrop := hinv.queue
  rw [hqueue, hbusy, List.drop_eq_nil_iff] at hdrop
  obtain ⟨event, n, hget, hrest⟩ := hc
  have hlt := (List.getElem?_eq_some_iff.1 hget).1
  refine hinv.complete c (hlt.trans_le hdrop) ?_ ⟨event, n, hget, hrest⟩
  rw [hinterrupted]
  exact List.not_mem_nil

/-- Somebody subscribes while the handler that was there is called. -/
private def lateSubscription : List (Label ℕ Unit String) :=
  [.subscribe () "log", .publish 3, .start, .take, .subscribe () "metrics", .publish 5, .handled,
    .handled, .take, .handled, .handled]

private def afterSubscription : Option (EventBus ℕ Unit String) :=
  (bus String 256 fun _ => ()).exec init lateSubscription

private theorem afterSubscription_isSome : afterSubscription.isSome := by decide

theorem drained_lateSubscription : ∃ s, afterSubscription = some s ∧ s.unfinished = 0 ∧
    (s.unfinished = 0 → ∀ c, s.Concerns (fun _ => ()) c → c ∈ s.calls) := by
  have hs : (bus String 256 fun _ : ℕ => ()).Reachable
      (afterSubscription.get afterSubscription_isSome) :=
    System.Reachable.exec .init (Option.some_get afterSubscription_isSome).symm
  exact ⟨_, (Option.some_get afterSubscription_isSome).symm, by decide, (drained hs).2.2.2⟩

end EventBus

end Yuviz.Conversation
