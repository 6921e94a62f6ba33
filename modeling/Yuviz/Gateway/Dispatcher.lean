import Yuviz.Gateway.Utils.ThreadPool

/-!
# The dispatcher

One thread delivers the events of a queue to the subscribers, and waits while there
is none. `stop` clears the flag `running_` without the mutex, notifies the thread
and joins it. The system begins when the thread has been started.

A thread that has found neither the flag cleared nor an event, and is not blocked
yet, does not hear of the stop. In the runs where it is elsewhere when it is notified,
it is not left behind (`not_lost`).
-/

namespace Yuviz.Gateway

/-- Where the thread of `dispatch_loop` is. -/
inductive Dispatcher.Worker (E : Type*)
  /-- It is about to read `running_`. -/
  | checking
  /-- It is about to take the mutex. -/
  | locking
  /-- It has the mutex, and is about to evaluate the condition of `wait`. -/
  | testing
  /-- The condition was false. It still has the mutex. -/
  | deciding
  | blocked
  /-- It is about to take the mutex again. -/
  | woken
  /-- The condition was true. It has the mutex. -/
  | passed
  | delivering (event : E)
  | returned
  deriving DecidableEq

/-- A thread that is notified wakes up, if it is blocked. -/
def Dispatcher.Worker.notified {E : Type*} : Dispatcher.Worker E → Dispatcher.Worker E
  | blocked => woken
  | worker => worker

structure Dispatcher (E : Type*) where
  queue : List E
  /-- The thread has the queue's mutex. -/
  locked : Bool
  worker : Dispatcher.Worker E
  /-- The calls of `dispatch` that are about to notify one. -/
  notifying : ℕ
  stopper : Stopper
  /-- What has been delivered. -/
  delivered : List E

namespace Dispatcher

inductive Label (E : Type*)
  | dispatch (event : E)
  | notifyOne
  | worker
  /-- The thread wakes up for no reason. -/
  | spurious
  | stop
  | notifyAll
  | join

variable {E : Type*}

section

variable (s : Dispatcher E)

/-- The flag is cleared by the first step of `stop`. -/
def running : Bool := s.stopper = .idle

def dispatch (event : E) : Option (Dispatcher E) :=
  if s.locked then none
  else some { s with queue := s.queue ++ [event], notifying := s.notifying + 1 }

def dispatchLoop : Option (Dispatcher E) :=
  match s.worker with
  | .checking => some { s with worker := if s.running then .locking else .returned }
  | .locking | .woken =>
    if s.locked then none else some { s with locked := true, worker := .testing }
  | .testing =>
    some { s with worker := if !s.running ∨ s.queue ≠ [] then .passed else .deciding }
  | .deciding => some { s with locked := false, worker := .blocked }
  | .blocked => none
  | .passed =>
    match s.queue with
    | [] => if s.running then none else some { s with locked := false, worker := .returned }
    | event :: queue => some { s with locked := false, queue := queue, worker := .delivering event }
  | .delivering event => some { s with delivered := s.delivered ++ [event], worker := .checking }
  | .returned => none

def notifyOne : Option (Dispatcher E) :=
  if s.notifying = 0 then none
  else some { s with notifying := s.notifying - 1, worker := s.worker.notified }

/-- The second call of two does nothing. -/
def stop : Dispatcher E := if s.running then { s with stopper := .exchanged } else s

def notifyAll : Option (Dispatcher E) :=
  if s.stopper = .exchanged then
    some { s with worker := s.worker.notified, stopper := .joining }
  else none

def join : Option (Dispatcher E) :=
  match s.stopper, s.worker with
  | .joining, .returned => some { s with stopper := .returned }
  | _, _ => none

def step (s : Dispatcher E) : Label E → Option (Dispatcher E)
  | .dispatch event => s.dispatch event
  | .notifyOne => s.notifyOne
  | .worker => s.dispatchLoop
  | .spurious => some { s with worker := s.worker.notified }
  | .stop => some s.stop
  | .notifyAll => s.notifyAll
  | .join => s.join

end

def system (E : Type*) : System (Dispatcher E) (Label E) where
  init := ⟨[], false, .checking, 0, .idle, []⟩
  step := step

/-- The thread has been notified of the stop, and is blocked. -/
def Lost (s : Dispatcher E) : Prop := s.stopper.notified ∧ s.worker = .blocked

/-- The thread is not about to block when it is notified. -/
def Heard (s : Dispatcher E) : Label E → Prop
  | .notifyAll => s.worker ≠ .deciding
  | _ => True

instance [DecidableEq E] (s : Dispatcher E) : DecidablePred s.Heard
  | .notifyAll => inferInstanceAs (Decidable (s.worker ≠ .deciding))
  | .dispatch _ | .notifyOne | .worker | .spurious | .stop | .join =>
    inferInstanceAs (Decidable True)

/-! ### The condition variable -/

def Worker.place : Worker E → CondVar.Place
  | deciding => .deciding
  | blocked => .blocked
  | _ => .away

theorem Worker.place_eq_deciding {worker : Worker E} :
    worker.place = .deciding ↔ worker = .deciding := by
  cases worker <;> simp [place]

def view (s : Dispatcher E) : CondVar Unit where
  stopped := !s.running
  notified := s.stopper.notified
  place _ := s.worker.place

variable {s s' : Dispatcher E}

theorem step_worker (hstopper : s'.stopper = s.stopper)
    (h : CondVar.Moves (!s.running) s.worker.place s'.worker.place) :
    CondVar.Step s.view s'.view := by
  have hview : s'.view = { s.view with place := fun _ => s'.worker.place } := by
    simp [view, running, hstopper]
  rw [hview]
  exact .move fun _ => h

theorem step_dispatchLoop (hst : s.dispatchLoop = some s') : CondVar.Step s.view s'.view := by
  rw [dispatchLoop] at hst
  cases hworker : s.worker with
  | checking =>
    rw [hworker] at hst
    obtain rfl := Option.some.inj hst
    refine step_worker rfl ?_
    rw [hworker]
    dsimp only
    split
    · exact .stay _
    · exact .stay _
  | locking =>
    rw [hworker] at hst
    dsimp only at hst
    split_ifs at hst
    obtain rfl := Option.some.inj hst
    exact step_worker rfl (by rw [hworker]; exact .stay _)
  | testing =>
    rw [hworker] at hst
    obtain rfl := Option.some.inj hst
    refine step_worker rfl ?_
    rw [hworker]
    dsimp only
    split_ifs with h
    · exact .stay _
    · exact .decide (Bool.eq_false_of_not_eq_true (not_or.1 h).1)
  | deciding =>
    rw [hworker] at hst
    obtain rfl := Option.some.inj hst
    exact step_worker rfl (by rw [hworker]; exact .block)
  | blocked =>
    rw [hworker] at hst
    cases hst
  | woken =>
    rw [hworker] at hst
    dsimp only at hst
    split_ifs at hst
    obtain rfl := Option.some.inj hst
    exact step_worker rfl (by rw [hworker]; exact .stay _)
  | passed =>
    rw [hworker] at hst
    dsimp only at hst
    split at hst
    · split_ifs at hst
      obtain rfl := Option.some.inj hst
      exact step_worker rfl (by rw [hworker]; exact .stay _)
    · obtain rfl := Option.some.inj hst
      exact step_worker rfl (by rw [hworker]; exact .stay _)
  | delivering event =>
    rw [hworker] at hst
    obtain rfl := Option.some.inj hst
    exact step_worker rfl (by rw [hworker]; exact .stay _)
  | returned =>
    rw [hworker] at hst
    cases hst

theorem moves_notified {stopped : Bool} :
    CondVar.Moves stopped s.worker.place s.worker.notified.place := by
  cases s.worker with
  | blocked => exact .wake
  | _ => exact .stay _

theorem step_view {l : Label E} (hl : s.Heard l) (hst : s.step l = some s') :
    CondVar.Step s.view s'.view := by
  cases l with
  | dispatch event =>
    rw [step, dispatch] at hst
    split_ifs at hst
    obtain rfl := Option.some.inj hst
    exact step_worker rfl (.stay _)
  | notifyOne =>
    rw [step, notifyOne] at hst
    split_ifs at hst
    obtain rfl := Option.some.inj hst
    exact step_worker rfl moves_notified
  | worker => exact step_dispatchLoop hst
  | spurious =>
    obtain rfl := Option.some.inj hst
    exact step_worker rfl moves_notified
  | stop =>
    rw [step, stop] at hst
    obtain rfl := Option.some.inj hst
    split_ifs with hrunning
    · have hidle : s.stopper = .idle := by simpa [running] using hrunning
      have hview : view { s with stopper := .exchanged } = { s.view with stopped := true } := by
        simp [view, running, hidle, Stopper.notified]
      rw [hview]
      exact .stop
    · exact step_worker rfl (.stay _)
  | notifyAll =>
    rw [step, notifyAll] at hst
    split_ifs at hst with hexchanged
    obtain rfl := Option.some.inj hst
    have hworker : s.worker ≠ .deciding := hl
    have haway : s.worker.notified.place = .away := by
      cases hs : s.worker with
      | deciding => exact absurd hs hworker
      | _ => rfl
    have hview : view { s with worker := s.worker.notified, stopper := .joining } =
        { s.view with notified := true, place := fun _ => .away } := by
      simp [view, running, hexchanged, haway, Stopper.notified]
    rw [hview]
    exact .notifyAll (by simp [view, running, hexchanged]) fun _ hw =>
      hworker (Worker.place_eq_deciding.1 hw)
  | join =>
    rw [step, join] at hst
    split at hst
    · next hjoining _ =>
      obtain rfl := Option.some.inj hst
      have hview : view { s with stopper := .returned } = s.view := by
        simp [view, running, hjoining, Stopper.notified]
      rw [hview]
      exact .move fun _ => .stay _
    · cases hst

/-- If the thread is notified when it is not about to block, it is not blocked afterwards. -/
theorem not_lost (hs : (system E).ReachableIf Heard s) : ¬ s.Lost := by
  have hinit : (system E).init.view.Safe := fun h => absurd h Bool.false_ne_true
  have hsafe := CondVar.safe_of_reachableIf view hinit (fun _ _ _ => step_view) hs
  rintro ⟨hnotified, hblocked⟩
  have haway : s.worker.place = .away := (hsafe hnotified).2 ()
  rw [hblocked] at haway
  cases haway

/-- A thread that is about to block when it is notified is lost with its next step. -/
theorem lost_of_deciding (hworker : s.worker = .deciding) (hst : s.notifyAll = some s') :
    ∃ t, s'.dispatchLoop = some t ∧ t.Lost := by
  rw [notifyAll, hworker] at hst
  split_ifs at hst
  obtain rfl := Option.some.inj hst
  exact ⟨_, rfl, rfl, rfl⟩

/-! ### The mutex -/

/-- The thread has the mutex. -/
def Worker.holds : Worker E → Bool
  | testing | deciding | passed => true
  | _ => false

theorem Worker.holds_notified (worker : Worker E) : worker.notified.holds = worker.holds := by
  cases worker <;> rfl

def Held (s : Dispatcher E) : Prop := s.locked = s.worker.holds

theorem Held.dispatchLoop (h : s.Held) (hst : s.dispatchLoop = some s') : s'.Held := by
  rw [Held] at h
  rw [Dispatcher.dispatchLoop] at hst
  cases hworker : s.worker with
  | checking =>
    rw [hworker] at hst h
    obtain rfl := Option.some.inj hst
    rw [Held, h]
    dsimp only
    split
    · rfl
    · rfl
  | locking | woken =>
    rw [hworker] at hst
    dsimp only at hst
    split_ifs at hst
    obtain rfl := Option.some.inj hst
    rfl
  | testing =>
    rw [hworker] at hst h
    obtain rfl := Option.some.inj hst
    rw [Held, h]
    dsimp only
    split_ifs
    · rfl
    · rfl
  | deciding =>
    rw [hworker] at hst
    obtain rfl := Option.some.inj hst
    rfl
  | blocked | returned =>
    rw [hworker] at hst
    cases hst
  | passed =>
    rw [hworker] at hst
    dsimp only at hst
    split at hst
    · split_ifs at hst
      obtain rfl := Option.some.inj hst
      rfl
    · obtain rfl := Option.some.inj hst
      rfl
  | delivering event =>
    rw [hworker] at hst h
    obtain rfl := Option.some.inj hst
    exact h

theorem Held.step {l : Label E} (h : s.Held) (hst : s.step l = some s') : s'.Held := by
  cases l with
  | dispatch event =>
    rw [Dispatcher.step, dispatch] at hst
    split_ifs at hst
    exact Option.some.inj hst ▸ h
  | notifyOne =>
    rw [Dispatcher.step, notifyOne] at hst
    split_ifs at hst
    exact Option.some.inj hst ▸ h.trans s.worker.holds_notified.symm
  | worker => exact h.dispatchLoop hst
  | spurious => exact Option.some.inj hst ▸ h.trans s.worker.holds_notified.symm
  | stop =>
    rw [Dispatcher.step, stop] at hst
    obtain rfl := Option.some.inj hst
    split_ifs
    · exact h
    · exact h
  | notifyAll =>
    rw [Dispatcher.step, notifyAll] at hst
    split_ifs at hst
    exact Option.some.inj hst ▸ h.trans s.worker.holds_notified.symm
  | join =>
    rw [Dispatcher.step, join] at hst
    split at hst
    · exact Option.some.inj hst ▸ h
    · cases hst

/-- The thread that joins the other is not kept for ever: it can go on, or the other can. -/
theorem not_stuck (hs : (system E).ReachableIf Heard s) (hjoining : s.stopper = .joining) :
    (∃ s', s.dispatchLoop = some s') ∨ ∃ s', s.join = some s' := by
  have hinit : (system E).init.Held := rfl
  have hheld : s.locked = s.worker.holds := hs.invariant hinit fun _ _ _ h _ hst => h.step hst
  have hblocked : s.worker ≠ .blocked := fun hblocked =>
    not_lost hs ⟨by rw [hjoining]; rfl, hblocked⟩
  have hrunning : s.running = false := by simp [running, hjoining]
  rw [dispatchLoop, join, hjoining]
  cases hworker : s.worker with
  | locking | woken =>
    rw [hworker] at hheld
    exact .inl ⟨_, if_neg (by simp [hheld, Worker.holds])⟩
  | passed =>
    refine .inl ?_
    dsimp only
    cases s.queue with
    | nil => exact ⟨_, if_neg (by simp [hrunning])⟩
    | cons event queue => exact ⟨_, rfl⟩
  | checking | testing | deciding | delivering event => exact .inl ⟨_, rfl⟩
  | blocked => exact absurd hworker hblocked
  | returned => exact .inr ⟨_, rfl⟩

end Dispatcher

end Yuviz.Gateway
