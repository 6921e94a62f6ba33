import Mathlib
import Yuviz.Gateway.Dispatcher
import Yuviz.Gateway.Timer.TimerLoop

/-!
# Shutting the gateway down

The pools, the dispatcher and the timer service are stopped in the same way: a flag,
a notification of all, and a join. In the runs where nobody is about to block when
all are notified, nobody is left in a wait without a limit, and the join is not for
ever (`joined`). There are other runs (`not_woken`).
-/

namespace Yuviz.Gateway

theorem joined {n : ℕ} {T E : Type*} [DecidableEq T] {now : ℤ} {pool : ThreadPool n T}
    {dispatcher : Dispatcher E} {timers : TimerLoop}
    (hpool : (ThreadPool.system n T).ReachableIf ThreadPool.Heard pool)
    (hdispatcher : (Dispatcher.system E).ReachableIf Dispatcher.Heard dispatcher)
    (htimers : (TimerLoop.system now).ReachableIf TimerLoop.Heard timers) :
    (¬ pool.Lost ∧ (pool.stopper = .joining →
      (∃ w s, pool.workerLoop w = some s) ∨ ∃ s, pool.join = some s)) ∧
    (¬ dispatcher.Lost ∧ (dispatcher.stopper = .joining →
      (∃ s, dispatcher.dispatchLoop = some s) ∨ ∃ s, dispatcher.join = some s)) ∧
    (¬ timers.Lost ∧ (timers.stopper = .joining →
      (∃ i s, timers.timerLoop i = some s) ∨ (∃ deadline, timers.worker = .sleeping deadline) ∨
        ∃ s, timers.join = some s)) :=
  ⟨⟨ThreadPool.not_lost hpool, ThreadPool.not_stuck hpool⟩,
    ⟨Dispatcher.not_lost hdispatcher, Dispatcher.not_stuck hdispatcher⟩,
    TimerLoop.not_lost htimers, TimerLoop.not_stuck htimers⟩

private instance neZero_two : NeZero 2 := ⟨by decide⟩

/-- The workers wait when they are told to stop, one of them after a task. -/
def stoppedPool : List (ThreadPool.Label 2 ℕ) :=
  [.worker 0, .worker 0, .worker 0, .submit 7, .notifyOne (some 0), .worker 0, .worker 0,
    .worker 0, .worker 0, .worker 0, .worker 0, .worker 0, .worker 1, .worker 1, .worker 1,
    .shutdown, .notifyAll]

def stoppedDispatcher : List (Dispatcher.Label ℕ) :=
  [.worker, .worker, .worker, .worker, .stop, .notifyAll]

def stoppedTimers : List TimerLoop.Label :=
  [.loop 0, .loop 0, .loop 0, .loop 0, .loop 0, .stop, .notifyAll]

theorem joined_waiting : ∃ pool dispatcher timers,
    (ThreadPool.system 2 ℕ).ReachableIf ThreadPool.Heard pool ∧ pool.stopper = .joining ∧
    (Dispatcher.system ℕ).ReachableIf Dispatcher.Heard dispatcher ∧
    dispatcher.stopper = .joining ∧
    (TimerLoop.system 0).ReachableIf TimerLoop.Heard timers ∧ timers.stopper = .joining ∧
    ¬ pool.Lost ∧ ¬ dispatcher.Lost ∧ ¬ timers.Lost := by
  have hpool : ((ThreadPool.system 2 ℕ).execIf ThreadPool.Heard (ThreadPool.system 2 ℕ).init
      stoppedPool).map (·.stopper) = some .joining := by decide
  have hdispatcher : ((Dispatcher.system ℕ).execIf Dispatcher.Heard (Dispatcher.system ℕ).init
      stoppedDispatcher).map (·.stopper) = some .joining := by decide
  have htimers : ((TimerLoop.system 0).execIf TimerLoop.Heard (TimerLoop.system 0).init
      stoppedTimers).map (·.stopper) = some .joining := by decide
  obtain ⟨pool, hrun, hjoining⟩ := Option.map_eq_some_iff.1 hpool
  obtain ⟨dispatcher, hrun', hjoining'⟩ := Option.map_eq_some_iff.1 hdispatcher
  obtain ⟨timers, hrun'', hjoining''⟩ := Option.map_eq_some_iff.1 htimers
  have hp : (ThreadPool.system 2 ℕ).ReachableIf ThreadPool.Heard pool := .execIf .init hrun
  have hd : (Dispatcher.system ℕ).ReachableIf Dispatcher.Heard dispatcher := .execIf .init hrun'
  have ht : (TimerLoop.system 0).ReachableIf TimerLoop.Heard timers := .execIf .init hrun''
  obtain ⟨⟨hp', -⟩, ⟨hd', -⟩, ht', -⟩ := joined hp hd ht
  exact ⟨pool, dispatcher, timers, hp, hjoining, hd, hjoining', ht, hjoining'', hp', hd', ht'⟩

/-- The thread blocks right after it has been notified. -/
theorem not_woken :
    (¬ ∀ pool, (ThreadPool.system 1 ℕ).Reachable pool → ¬ pool.Lost) ∧
    (¬ ∀ dispatcher, (Dispatcher.system ℕ).Reachable dispatcher → ¬ dispatcher.Lost) ∧
    ¬ ∀ timers, (TimerLoop.system 0).Reachable timers → ¬ timers.Lost := by
  have hpool : ((ThreadPool.system 1 ℕ).exec (ThreadPool.system 1 ℕ).init
      [.worker 0, .worker 0, .shutdown, .notifyAll, .worker 0]).map
      (fun s => (s.stopper.notified, s.workers 0)) = some (true, .blocked) := by decide
  have hdispatcher : ((Dispatcher.system ℕ).exec (Dispatcher.system ℕ).init
      [.worker, .worker, .worker, .stop, .notifyAll, .worker]).map
      (fun s => (s.stopper.notified, s.worker)) = some (true, .blocked) := by decide
  have htimers : ((TimerLoop.system 0).exec (TimerLoop.system 0).init
      [.loop 0, .loop 0, .loop 0, .loop 0, .stop, .notifyAll, .loop 0]).map
      (fun s => (s.stopper.notified, s.worker)) = some (true, .blocked) := by decide
  refine ⟨fun h => ?_, fun h => ?_, fun h => ?_⟩
  · obtain ⟨s, hs, heq⟩ := Option.map_eq_some_iff.1 hpool
    obtain ⟨hnotified, hblocked⟩ := Prod.mk.inj heq
    exact h s (.exec .init hs) ⟨hnotified, 0, hblocked⟩
  · obtain ⟨s, hs, heq⟩ := Option.map_eq_some_iff.1 hdispatcher
    obtain ⟨hnotified, hblocked⟩ := Prod.mk.inj heq
    exact h s (.exec .init hs) ⟨hnotified, hblocked⟩
  · obtain ⟨s, hs, heq⟩ := Option.map_eq_some_iff.1 htimers
    obtain ⟨hnotified, hblocked⟩ := Prod.mk.inj heq
    exact h s (.exec .init hs) ⟨hnotified, hblocked⟩

end Yuviz.Gateway
