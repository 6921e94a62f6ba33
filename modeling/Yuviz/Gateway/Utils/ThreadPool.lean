import Mathlib.Data.Fintype.Basic
import Mathlib.Data.List.Basic
import Yuviz.CondVar

/-!
# The thread pool

The workers of a pool take tasks from a queue, under a mutex, and wait while there
is none. `shutdown` sets the stop flag without the mutex, notifies all workers and
joins them.

A worker that has found neither the flag nor a task, and is not blocked yet, does not
hear of the shutdown. In the runs where there is none when all are notified, no
worker is left behind (`not_lost`), and otherwise one may be (`lost_of_deciding`).
-/

namespace Yuviz.Gateway

/-- Where a worker is in its loop. -/
inductive ThreadPool.Worker (T : Type*)
  /-- It is about to take the mutex. -/
  | locking
  /-- It has the mutex, and is about to evaluate the condition of `wait`. -/
  | testing
  /-- The condition was false. It still has the mutex. -/
  | deciding
  | blocked
  /-- It is about to take the mutex again. -/
  | woken
  /-- The condition was true. It has the mutex. -/
  | passed
  | running (task : T)
  | returned
  deriving DecidableEq

/-- Where the thread that stops the others is. -/
inductive Stopper
  | idle
  /-- It has set the flag. -/
  | exchanged
  /-- It has notified all, and joins them. -/
  | joining
  | returned
  deriving DecidableEq

/-- It has notified all. -/
def Stopper.notified : Stopper → Bool
  | idle | exchanged => false
  | joining | returned => true

/-- A pool of `n` workers. -/
structure ThreadPool (n : ℕ) (T : Type*) where
  tasks : List T
  pending : ℤ
  mutex : Option (Fin n)
  workers : Fin n → ThreadPool.Worker T
  /-- The calls of `submit` that are about to notify one. -/
  notifying : ℕ
  stopper : Stopper

namespace ThreadPool

inductive Label (n : ℕ) (T : Type*)
  | submit (task : T)
  /-- The worker that is notified, if any is blocked. -/
  | notifyOne (w : Option (Fin n))
  | worker (w : Fin n)
  /-- A worker wakes up for no reason. -/
  | spurious (w : Fin n)
  | shutdown
  | notifyAll
  | join

variable {n : ℕ} {T : Type*}

section

variable (s : ThreadPool n T)

/-- The flag is set by the first step of `shutdown`, and never reset. -/
def stop : Bool := s.stopper ≠ .idle

def setWorker (w : Fin n) (worker : Worker T) : ThreadPool n T :=
  { s with workers := Function.update s.workers w worker }

/-- A call on a pool that is stopped throws. -/
def submit (task : T) : Option (ThreadPool n T) :=
  if s.mutex = none then
    if s.stop then some s
    else some
      { s with tasks := s.tasks ++ [task], pending := s.pending + 1, notifying := s.notifying + 1 }
  else none

variable [DecidableEq T]

def wake (w : Fin n) : Option (ThreadPool n T) :=
  if s.workers w = .blocked then some (s.setWorker w .woken) else none

def notifyOne : Option (Fin n) → Option (ThreadPool n T)
  | some w => if s.notifying = 0 then none else { s with notifying := s.notifying - 1 }.wake w
  | none =>
    if s.notifying = 0 ∨ ∃ w, s.workers w = .blocked then none
    else some { s with notifying := s.notifying - 1 }

def workerLoop (w : Fin n) : Option (ThreadPool n T) :=
  match s.workers w with
  | .locking | .woken =>
    if s.mutex = none then some ({ s with mutex := some w }.setWorker w .testing) else none
  | .testing => some (s.setWorker w (if s.stop ∨ s.tasks ≠ [] then .passed else .deciding))
  | .deciding => some ({ s with mutex := none }.setWorker w .blocked)
  | .blocked => none
  | .passed =>
    match s.tasks with
    | [] => if s.stop then some ({ s with mutex := none }.setWorker w .returned) else none
    | task :: tasks => some ({ s with mutex := none, tasks := tasks }.setWorker w (.running task))
  | .running _ => some ({ s with pending := s.pending - 1 }.setWorker w .locking)
  | .returned => none

/-- The second call of two does nothing. -/
def shutdown : ThreadPool n T :=
  if s.stop then s else { s with stopper := .exchanged }

def notifyAll : Option (ThreadPool n T) :=
  if s.stopper = .exchanged then
    some
      { s with
        workers := fun w => if s.workers w = .blocked then .woken else s.workers w
        stopper := .joining }
  else none

def join : Option (ThreadPool n T) :=
  if s.stopper = .joining ∧ ∀ w, s.workers w = .returned then some { s with stopper := .returned }
  else none

def step (s : ThreadPool n T) : Label n T → Option (ThreadPool n T)
  | .submit task => s.submit task
  | .notifyOne w => s.notifyOne w
  | .worker w => s.workerLoop w
  | .spurious w => s.wake w
  | .shutdown => some s.shutdown
  | .notifyAll => s.notifyAll
  | .join => s.join

end

def system (n : ℕ) (T : Type*) [DecidableEq T] : System (ThreadPool n T) (Label n T) where
  init := ⟨[], 0, none, fun _ => .locking, 0, .idle⟩
  step := step

/-- All have been notified of the stop, and a worker is blocked. -/
def Lost (s : ThreadPool n T) : Prop :=
  s.stopper.notified ∧ ∃ w, s.workers w = .blocked

/-- No worker is about to block when all are notified. -/
def Heard (s : ThreadPool n T) : Label n T → Prop
  | .notifyAll => ∀ w, s.workers w ≠ .deciding
  | _ => True

instance [DecidableEq T] (s : ThreadPool n T) : DecidablePred s.Heard
  | .notifyAll => inferInstanceAs (Decidable (∀ w, s.workers w ≠ .deciding))
  | .submit _ | .notifyOne _ | .worker _ | .spurious _ | .shutdown | .join =>
    inferInstanceAs (Decidable True)

/-! ### The condition variable -/

def Worker.place : Worker T → CondVar.Place
  | deciding => .deciding
  | blocked => .blocked
  | _ => .away

theorem Worker.place_eq_deciding {worker : Worker T} :
    worker.place = .deciding ↔ worker = .deciding := by
  cases worker <;> simp [place]

def view (s : ThreadPool n T) : CondVar (Fin n) where
  stopped := s.stop
  notified := s.stopper.notified
  place w := (s.workers w).place

variable {s s' : ThreadPool n T} {w : Fin n} {worker : Worker T}

/-- The step of a worker is one of the condition variable. -/
theorem step_setWorker {t : ThreadPool n T} (hworkers : t.workers = s.workers)
    (hstopper : t.stopper = s.stopper)
    (h : CondVar.Moves s.stop (s.workers w).place worker.place) :
    CondVar.Step s.view (t.setWorker w worker).view := by
  have hview : (t.setWorker w worker).view =
      { s.view with place := Function.update s.view.place w worker.place } := by
    rw [view, setWorker, hworkers]
    simp only [stop, hstopper]
    refine congrArg (CondVar.mk _ _) (funext fun v => ?_)
    by_cases hv : v = w
    · simp [hv]
    · simp [hv, view]
  rw [hview]
  exact .move_update h

/-- Nothing moves, as far as the condition variable is concerned. -/
theorem step_of_view_eq (h : s'.view = s.view) : CondVar.Step s.view s'.view := by
  rw [h]
  exact .move fun _ => .stay _

theorem step_workerLoop (hst : s.workerLoop w = some s') : CondVar.Step s.view s'.view := by
  rw [workerLoop] at hst
  cases hworker : s.workers w with
  | locking =>
    rw [hworker] at hst
    dsimp only at hst
    split_ifs at hst
    obtain rfl := Option.some.inj hst
    exact step_setWorker rfl rfl (by rw [hworker]; exact .stay _)
  | testing =>
    rw [hworker] at hst
    obtain rfl := Option.some.inj hst
    refine step_setWorker rfl rfl ?_
    rw [hworker]
    split_ifs with h
    · exact .stay _
    · exact .decide (Bool.eq_false_of_not_eq_true (not_or.1 h).1)
  | deciding =>
    rw [hworker] at hst
    obtain rfl := Option.some.inj hst
    exact step_setWorker rfl rfl (by rw [hworker]; exact .block)
  | blocked =>
    rw [hworker] at hst
    cases hst
  | woken =>
    rw [hworker] at hst
    dsimp only at hst
    split_ifs at hst
    obtain rfl := Option.some.inj hst
    exact step_setWorker rfl rfl (by rw [hworker]; exact .stay _)
  | passed =>
    rw [hworker] at hst
    dsimp only at hst
    split at hst
    · split_ifs at hst
      obtain rfl := Option.some.inj hst
      exact step_setWorker rfl rfl (by rw [hworker]; exact .stay _)
    · obtain rfl := Option.some.inj hst
      exact step_setWorker rfl rfl (by rw [hworker]; exact .stay _)
  | running task =>
    rw [hworker] at hst
    obtain rfl := Option.some.inj hst
    exact step_setWorker rfl rfl (by rw [hworker]; exact .stay _)
  | returned =>
    rw [hworker] at hst
    cases hst

section

variable [DecidableEq T]

theorem step_wake (hst : s.wake w = some s') : CondVar.Step s.view s'.view := by
  rw [wake] at hst
  split_ifs at hst with hblocked
  obtain rfl := Option.some.inj hst
  refine step_setWorker rfl rfl ?_
  rw [hblocked]
  exact .wake

theorem step_view {l : Label n T} (hl : s.Heard l) (hst : s.step l = some s') :
    CondVar.Step s.view s'.view := by
  cases l with
  | submit task =>
    rw [step, submit] at hst
    refine step_of_view_eq ?_
    split_ifs at hst
    · rw [← Option.some.inj hst]
    · rw [← Option.some.inj hst]
      rfl
  | notifyOne w =>
    rw [step] at hst
    cases w with
    | some w =>
      rw [notifyOne] at hst
      split_ifs at hst
      exact step_wake (s := { s with notifying := s.notifying - 1 }) hst
    | none =>
      rw [notifyOne] at hst
      split_ifs at hst
      obtain rfl := Option.some.inj hst
      exact step_of_view_eq rfl
  | worker w => exact step_workerLoop hst
  | spurious w => exact step_wake hst
  | shutdown =>
    rw [step, shutdown] at hst
    split_ifs at hst
    · exact step_of_view_eq (by rw [← Option.some.inj hst])
    · next hstop =>
      obtain rfl := Option.some.inj hst
      have hidle : s.stopper = .idle := by simpa [stop] using hstop
      have hview : view { s with stopper := .exchanged } = { s.view with stopped := true } := by
        simp [view, stop, hidle, Stopper.notified]
      rw [hview]
      exact .stop
  | notifyAll =>
    rw [step, notifyAll] at hst
    split_ifs at hst with hexchanged
    obtain rfl := Option.some.inj hst
    have hstop : s.view.stopped = true := by simp [view, stop, hexchanged]
    have hview : view { s with
        workers := fun w => if s.workers w = .blocked then .woken else s.workers w,
        stopper := .joining } = { s.view with notified := true, place := fun _ => .away } := by
      have haway : ∀ w, (if s.workers w = .blocked then .woken else s.workers w).place =
          CondVar.Place.away := by
        intro w
        have hw := hl w
        cases hworker : s.workers w <;> simp_all [Worker.place]
      simp [view, stop, hexchanged, haway, Stopper.notified]
    rw [hview]
    exact .notifyAll hstop fun w hw => hl w (Worker.place_eq_deciding.1 hw)
  | join =>
    rw [step, join] at hst
    split_ifs at hst with hjoin
    obtain rfl := Option.some.inj hst
    exact step_of_view_eq (by simp [view, stop, hjoin.1, Stopper.notified])

/-- If all are notified when no worker is about to block, none is blocked afterwards. -/
theorem not_lost (hs : (system n T).ReachableIf Heard s) : ¬ s.Lost := by
  have hinit : (system n T).init.view.Safe := fun h => absurd h Bool.false_ne_true
  have hsafe := CondVar.safe_of_reachableIf view hinit (fun _ _ _ => step_view) hs
  rintro ⟨hnotified, w, hblocked⟩
  have haway : (s.workers w).place = .away := (hsafe hnotified).2 w
  rw [hblocked] at haway
  cases haway

/-- A worker that is about to block when all are notified is lost with its next step. -/
theorem lost_of_deciding (hworker : s.workers w = .deciding) (hst : s.notifyAll = some s') :
    ∃ t, s'.workerLoop w = some t ∧ t.Lost := by
  rw [notifyAll] at hst
  split_ifs at hst with hexchanged
  obtain rfl := Option.some.inj hst
  refine ⟨_, by rw [workerLoop]; simp [hworker]; rfl, rfl, w, ?_⟩
  simp [setWorker]

end

/-! ### The mutex -/

/-- The worker has the mutex. -/
def Worker.holds : Worker T → Bool
  | testing | deciding | passed => true
  | _ => false

def Held (s : ThreadPool n T) : Prop := ∀ w, (s.workers w).holds ↔ s.mutex = some w

theorem Held.setWorker (h : s.Held) {t : ThreadPool n T} (hworkers : t.workers = s.workers)
    (hmutex : ∀ v, v ≠ w → (t.mutex = some v ↔ s.mutex = some v))
    (hw : worker.holds ↔ t.mutex = some w) : (t.setWorker w worker).Held := by
  intro v
  by_cases hv : v = w
  · subst hv
    simpa [ThreadPool.setWorker] using hw
  · simpa [ThreadPool.setWorker, hv, hworkers, hmutex v hv] using h v

theorem Held.workerLoop (h : s.Held) (hst : s.workerLoop w = some s') : s'.Held := by
  have hw := h w
  rw [ThreadPool.workerLoop] at hst
  cases hworker : s.workers w with
  | locking =>
    rw [hworker] at hst hw
    dsimp only at hst
    split_ifs at hst with hfree
    obtain rfl := Option.some.inj hst
    exact h.setWorker rfl (fun v hv => by simp [hfree, hv.symm]) (by simp [Worker.holds])
  | testing =>
    rw [hworker] at hst hw
    obtain rfl := Option.some.inj hst
    refine h.setWorker rfl (fun _ _ => Iff.rfl) ?_
    rw [← hw]
    split_ifs
    · exact Iff.rfl
    · exact Iff.rfl
  | deciding =>
    rw [hworker] at hst hw
    obtain rfl := Option.some.inj hst
    have hmutex := hw.1 rfl
    exact h.setWorker rfl (fun v hv => by simp [hmutex, hv.symm]) (by simp [Worker.holds])
  | blocked =>
    rw [hworker] at hst
    cases hst
  | woken =>
    rw [hworker] at hst hw
    dsimp only at hst
    split_ifs at hst with hfree
    obtain rfl := Option.some.inj hst
    exact h.setWorker rfl (fun v hv => by simp [hfree, hv.symm]) (by simp [Worker.holds])
  | passed =>
    rw [hworker] at hst hw
    have hmutex := hw.1 rfl
    dsimp only at hst
    split at hst
    · split_ifs at hst
      obtain rfl := Option.some.inj hst
      exact h.setWorker rfl (fun v hv => by simp [hmutex, hv.symm]) (by simp [Worker.holds])
    · obtain rfl := Option.some.inj hst
      exact h.setWorker rfl (fun v hv => by simp [hmutex, hv.symm]) (by simp [Worker.holds])
  | running task =>
    rw [hworker] at hst hw
    obtain rfl := Option.some.inj hst
    exact h.setWorker rfl (fun _ _ => Iff.rfl) hw
  | returned =>
    rw [hworker] at hst
    cases hst

/-- A worker that has the mutex goes on, once the pool is stopped. -/
theorem workerLoop_of_holds (hstop : s.stop) (hholds : (s.workers w).holds) :
    ∃ s', s.workerLoop w = some s' := by
  rw [workerLoop]
  cases hworker : s.workers w with
  | passed =>
    dsimp only
    cases s.tasks with
    | nil => exact ⟨_, if_pos hstop⟩
    | cons task tasks => exact ⟨_, rfl⟩
  | testing | deciding => exact ⟨_, rfl⟩
  | _ =>
    rw [hworker] at hholds
    cases hholds

theorem workerLoop_of_not_lost (h : s.Held) (hstop : s.stop) (hblocked : s.workers w ≠ .blocked)
    (hreturned : s.workers w ≠ .returned) : ∃ v s', s.workerLoop v = some s' := by
  by_cases hholds : (s.workers w).holds
  · exact ⟨w, workerLoop_of_holds hstop hholds⟩
  cases hmutex : s.mutex with
  | some v => exact ⟨v, workerLoop_of_holds hstop ((h v).2 hmutex)⟩
  | none =>
    refine ⟨w, ?_⟩
    rw [workerLoop]
    cases hworker : s.workers w with
    | locking | woken => exact ⟨_, if_pos hmutex⟩
    | running task => exact ⟨_, rfl⟩
    | blocked => exact absurd hworker hblocked
    | returned => exact absurd hworker hreturned
    | testing | deciding | passed =>
      rw [hworker] at hholds
      exact absurd rfl hholds

section

variable [DecidableEq T]

theorem Held.wake (h : s.Held) (hst : s.wake w = some s') : s'.Held := by
  have hw := h w
  rw [ThreadPool.wake] at hst
  split_ifs at hst with hblocked
  obtain rfl := Option.some.inj hst
  rw [hblocked] at hw
  exact h.setWorker rfl (fun _ _ => Iff.rfl) hw

theorem Held.step {l : Label n T} (h : s.Held) (hst : s.step l = some s') : s'.Held := by
  cases l with
  | submit task =>
    rw [ThreadPool.step, submit] at hst
    split_ifs at hst
    · exact Option.some.inj hst ▸ h
    · exact Option.some.inj hst ▸ h
  | notifyOne w =>
    rw [ThreadPool.step] at hst
    cases w with
    | some w =>
      rw [notifyOne] at hst
      split_ifs at hst
      exact Held.wake (s := { s with notifying := s.notifying - 1 }) h hst
    | none =>
      rw [notifyOne] at hst
      split_ifs at hst
      exact Option.some.inj hst ▸ h
  | worker w => exact h.workerLoop hst
  | spurious w => exact h.wake hst
  | shutdown =>
    rw [ThreadPool.step, shutdown] at hst
    obtain rfl := Option.some.inj hst
    split_ifs
    · exact h
    · exact h
  | notifyAll =>
    rw [ThreadPool.step, notifyAll] at hst
    split_ifs at hst
    obtain rfl := Option.some.inj hst
    intro w
    have hw := h w
    dsimp only
    split_ifs with hblocked
    · rwa [hblocked] at hw
    · exact hw
  | join =>
    rw [ThreadPool.step, join] at hst
    split_ifs at hst
    exact Option.some.inj hst ▸ h

/-- The thread that joins the workers is not kept for ever: it can go on, or a worker can. -/
theorem not_stuck (hs : (system n T).ReachableIf Heard s) (hjoining : s.stopper = .joining) :
    (∃ w s', s.workerLoop w = some s') ∨ ∃ s', s.join = some s' := by
  by_cases hreturned : ∀ w, s.workers w = .returned
  · exact .inr ⟨_, if_pos ⟨hjoining, hreturned⟩⟩
  · obtain ⟨w, hw⟩ := not_forall.1 hreturned
    have hheld : s.Held :=
      hs.invariant (fun w => by simp [system, Worker.holds]) fun _ _ _ h _ hst => h.step hst
    have hblocked : s.workers w ≠ .blocked := fun hblocked =>
      not_lost hs ⟨by rw [hjoining]; rfl, w, hblocked⟩
    exact .inl (workerLoop_of_not_lost hheld (by simp [stop, hjoining]) hblocked hw)

end

end ThreadPool

end Yuviz.Gateway
