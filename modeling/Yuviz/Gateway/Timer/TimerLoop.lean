import Mathlib.Data.Finset.Max
import Yuviz.Gateway.Timer.TimerService
import Yuviz.Gateway.Utils.ThreadPool

/-!
# Stopping the timer service

`TimerService` has a section under the mutex as one step. Here the waits of the loop
have their own: it waits without a limit while the heap is empty, and until the deadline
of the top otherwise. `stop` clears the flag `running_` without the mutex, notifies the
thread and joins it. The system begins when the thread has been started.

As with the pool, the thread may be left behind in the wait without a limit, and is
not if it is elsewhere when it is notified (`not_lost`).
-/

namespace Yuviz.Gateway

/-- Where the thread of `timer_loop` is. -/
inductive TimerLoop.Worker
  /-- It is about to read `running_`. -/
  | checking
  /-- It is about to take the mutex. -/
  | locking
  /-- It has the mutex, and is about to look whether the heap is empty. -/
  | entered
  /-- It has the mutex, and is about to evaluate the condition of `wait`. -/
  | testing
  /-- The condition was false. It still has the mutex. -/
  | deciding
  | blocked
  /-- It is about to take the mutex again. -/
  | woken
  /-- The condition was true. It has the mutex. -/
  | passed
  /-- It has the mutex, and is about to look at the top of the heap. -/
  | looking
  /-- The top is not due. It still has the mutex. -/
  | early (deadline : ℤ)
  /-- It is in `wait_until`. -/
  | sleeping (deadline : ℤ)
  /-- It is about to take the mutex again, at the end of `wait_until`. -/
  | stirred
  | firing (timer : TimerService.Entry)
  | returned
  deriving DecidableEq

/-- A thread that is notified wakes up, if it is blocked or sleeping. -/
def TimerLoop.Worker.notified : TimerLoop.Worker → TimerLoop.Worker
  | blocked => woken
  | sleeping _ => stirred
  | worker => worker

structure TimerLoop where
  nextId : BitVec 64
  heap : List TimerService.Entry
  cancelled : Finset (BitVec 64)
  now : ℤ
  /-- The calls of `schedule` that have got their id, and are to take the mutex. -/
  scheduling : List TimerService.Entry
  /-- The calls of `schedule` that are about to notify one. -/
  notifying : ℕ
  /-- The thread has the mutex. -/
  locked : Bool
  worker : TimerLoop.Worker
  stopper : Stopper
  fired : List TimerService.Entry
  tickets : ℕ

namespace TimerLoop

inductive Label
  | tick (elapsed : ℕ)
  | schedule (type : TimerType) (sessionId : String) (delay : ℤ)
  /-- The push of the `i`-th of the calls of `schedule`. -/
  | push (i : ℕ)
  | notifyOne
  | cancel (id : BitVec 64)
  /-- A step of the loop, with the `i`-th entry at the top of the heap. -/
  | loop (i : ℕ)
  /-- The thread wakes up for no reason. -/
  | spurious
  | stop
  | notifyAll
  | join

section

variable (s : TimerLoop)

/-- The flag is cleared by the first step of `stop`. -/
def running : Bool := s.stopper = .idle

def schedule (type : TimerType) (sessionId : String) (delay : ℤ) : TimerLoop :=
  { s with
    nextId := s.nextId + 1
    scheduling := s.scheduling ++ [⟨s.tickets, s.now + delay, s.nextId, type, sessionId⟩]
    tickets := s.tickets + 1 }

def push (i : ℕ) : Option TimerLoop :=
  if s.locked then none
  else (s.scheduling[i]?).map fun timer =>
    { s with
      heap := timer :: s.heap
      scheduling := s.scheduling.eraseIdx i
      notifying := s.notifying + 1 }

def notifyOne : Option TimerLoop :=
  if s.notifying = 0 then none
  else some { s with notifying := s.notifying - 1, worker := s.worker.notified }

def cancel (id : BitVec 64) : Option TimerLoop :=
  if id = 0 then some s
  else if s.locked then none
  else some { s with cancelled := insert id s.cancelled }

/-- The thread looks at the top of the heap, and pops it if it is due. -/
def look (i : ℕ) : Option TimerLoop :=
  match s.heap[i]? with
  | some timer =>
    if ∀ other ∈ s.heap, timer.deadline ≤ other.deadline then
      if s.now < timer.deadline then some { s with worker := .early timer.deadline }
      else some
        { s with
          heap := s.heap.eraseIdx i
          cancelled := s.cancelled.erase timer.id
          locked := false
          worker := if timer.id ∈ s.cancelled then .checking else .firing timer }
    else none
  | none => none

def timerLoop (i : ℕ) : Option TimerLoop :=
  match s.worker with
  | .checking => some { s with worker := if s.running then .locking else .returned }
  | .locking => if s.locked then none else some { s with locked := true, worker := .entered }
  | .entered => some { s with worker := if s.heap = [] then .testing else .looking }
  | .testing => some { s with worker := if !s.running ∨ s.heap ≠ [] then .passed else .deciding }
  | .deciding => some { s with locked := false, worker := .blocked }
  | .blocked => none
  | .woken => if s.locked then none else some { s with locked := true, worker := .testing }
  | .passed =>
    if s.running then some { s with worker := .looking }
    else some { s with locked := false, worker := .returned }
  | .looking => s.look i
  | .early deadline => some { s with locked := false, worker := .sleeping deadline }
  | .sleeping deadline => if s.now < deadline then none else some { s with worker := .stirred }
  -- The mutex is taken and given back at once, by `continue`.
  | .stirred => if s.locked then none else some { s with worker := .checking }
  | .firing timer => some { s with worker := .checking, fired := s.fired ++ [timer] }
  | .returned => none

/-- The second call of two does nothing. -/
def stop : TimerLoop := if s.running then { s with stopper := .exchanged } else s

def notifyAll : Option TimerLoop :=
  if s.stopper = .exchanged then
    some { s with worker := s.worker.notified, stopper := .joining }
  else none

def join : Option TimerLoop :=
  match s.stopper, s.worker with
  | .joining, .returned => some { s with stopper := .returned }
  | _, _ => none

def step (s : TimerLoop) : Label → Option TimerLoop
  | .tick elapsed => some { s with now := s.now + elapsed }
  | .schedule type sessionId delay => some (s.schedule type sessionId delay)
  | .push i => s.push i
  | .notifyOne => s.notifyOne
  | .cancel id => s.cancel id
  | .loop i => s.timerLoop i
  | .spurious => some { s with worker := s.worker.notified }
  | .stop => some s.stop
  | .notifyAll => s.notifyAll
  | .join => s.join

end

def system (now : ℤ) : System TimerLoop Label where
  init := ⟨1, [], ∅, now, [], 0, false, .checking, .idle, [], 0⟩
  step := step

/-- The thread has been notified of the stop, and is in the wait without a limit. -/
def Lost (s : TimerLoop) : Prop := s.stopper.notified ∧ s.worker = .blocked

/-- The thread is not about to block when it is notified. -/
def Heard (s : TimerLoop) : Label → Prop
  | .notifyAll => s.worker ≠ .deciding
  | _ => True

instance (s : TimerLoop) : DecidablePred s.Heard
  | .notifyAll => inferInstanceAs (Decidable (s.worker ≠ .deciding))
  | .tick _ | .schedule .. | .push _ | .notifyOne | .cancel _ | .loop _ | .spurious | .stop
  | .join => inferInstanceAs (Decidable True)

/-! ### The condition variable -/

def Worker.place : Worker → CondVar.Place
  | deciding => .deciding
  | blocked => .blocked
  | _ => .away

theorem Worker.place_eq_deciding {worker : Worker} :
    worker.place = .deciding ↔ worker = .deciding := by
  cases worker <;> simp [place]

def view (s : TimerLoop) : CondVar Unit where
  stopped := !s.running
  notified := s.stopper.notified
  place _ := s.worker.place

variable {s s' : TimerLoop}

theorem step_worker (hstopper : s'.stopper = s.stopper)
    (h : CondVar.Moves (!s.running) s.worker.place s'.worker.place) :
    CondVar.Step s.view s'.view := by
  have hview : s'.view = { s.view with place := fun _ => s'.worker.place } := by
    simp [view, running, hstopper]
  rw [hview]
  exact .move fun _ => h

/-- The look at the heap is a step of a thread that waits on a condition, -/
theorem step_look {i : ℕ} (hworker : s.worker = .looking) (hst : s.look i = some s') :
    CondVar.Step s.view s'.view := by
  rw [look] at hst
  split at hst
  · split_ifs at hst
    · obtain rfl := Option.some.inj hst
      exact step_worker rfl (by rw [hworker]; exact .stay _)
    · obtain rfl := Option.some.inj hst
      exact step_worker rfl (by rw [hworker]; exact .stay _)
    · obtain rfl := Option.some.inj hst
      exact step_worker rfl (by rw [hworker]; exact .stay _)
  · cases hst

/-- and so is every step of the loop, -/
theorem step_timerLoop {i : ℕ} (hst : s.timerLoop i = some s') : CondVar.Step s.view s'.view := by
  rw [timerLoop] at hst
  cases hworker : s.worker with
  | checking =>
    rw [hworker] at hst
    obtain rfl := Option.some.inj hst
    refine step_worker rfl ?_
    rw [hworker]
    dsimp only
    split
    · exact .stay _
    · exact .stay _
  | locking =>
    rw [hworker] at hst
    dsimp only at hst
    split_ifs at hst
    obtain rfl := Option.some.inj hst
    exact step_worker rfl (by rw [hworker]; exact .stay _)
  | entered =>
    rw [hworker] at hst
    obtain rfl := Option.some.inj hst
    refine step_worker rfl ?_
    rw [hworker]
    dsimp only
    split
    · exact .stay _
    · exact .stay _
  | testing =>
    rw [hworker] at hst
    obtain rfl := Option.some.inj hst
    refine step_worker rfl ?_
    rw [hworker]
    dsimp only
    split_ifs with h
    · exact .stay _
    · exact .decide (Bool.eq_false_of_not_eq_true (not_or.1 h).1)
  | deciding =>
    rw [hworker] at hst
    obtain rfl := Option.some.inj hst
    exact step_worker rfl (by rw [hworker]; exact .block)
  | blocked =>
    rw [hworker] at hst
    cases hst
  | woken =>
    rw [hworker] at hst
    dsimp only at hst
    split_ifs at hst
    obtain rfl := Option.some.inj hst
    exact step_worker rfl (by rw [hworker]; exact .stay _)
  | passed =>
    rw [hworker] at hst
    dsimp only at hst
    split_ifs at hst
    · obtain rfl := Option.some.inj hst
      exact step_worker rfl (by rw [hworker]; exact .stay _)
    · obtain rfl := Option.some.inj hst
      exact step_worker rfl (by rw [hworker]; exact .stay _)
  | looking =>
    rw [hworker] at hst
    exact step_look hworker hst
  | early deadline =>
    rw [hworker] at hst
    obtain rfl := Option.some.inj hst
    exact step_worker rfl (by rw [hworker]; exact .stay _)
  | sleeping deadline =>
    rw [hworker] at hst
    dsimp only at hst
    split_ifs at hst
    obtain rfl := Option.some.inj hst
    exact step_worker rfl (by rw [hworker]; exact .stay _)
  | stirred =>
    rw [hworker] at hst
    dsimp only at hst
    split_ifs at hst
    obtain rfl := Option.some.inj hst
    exact step_worker rfl (by rw [hworker]; exact .stay _)
  | firing timer =>
    rw [hworker] at hst
    obtain rfl := Option.some.inj hst
    exact step_worker rfl (by rw [hworker]; exact .stay _)
  | returned =>
    rw [hworker] at hst
    cases hst

theorem moves_notified {stopped : Bool} :
    CondVar.Moves stopped s.worker.place s.worker.notified.place := by
  cases s.worker with
  | blocked => exact .wake
  | _ => exact .stay _

/-- and every other one, if the stop is heard. -/
theorem step_view {l : Label} (hl : s.Heard l) (hst : s.step l = some s') :
    CondVar.Step s.view s'.view := by
  cases l with
  | tick elapsed =>
    obtain rfl := Option.some.inj hst
    exact step_worker rfl (.stay _)
  | schedule type sessionId delay =>
    obtain rfl := Option.some.inj hst
    exact step_worker rfl (.stay _)
  | push i =>
    rw [step, push] at hst
    split_ifs at hst
    obtain ⟨timer, -, rfl⟩ := Option.map_eq_some_iff.1 hst
    exact step_worker rfl (.stay _)
  | notifyOne =>
    rw [step, notifyOne] at hst
    split_ifs at hst
    obtain rfl := Option.some.inj hst
    exact step_worker rfl moves_notified
  | cancel id =>
    rw [step, cancel] at hst
    split_ifs at hst
    · obtain rfl := Option.some.inj hst
      exact step_worker rfl (.stay _)
    · obtain rfl := Option.some.inj hst
      exact step_worker rfl (.stay _)
  | loop i => exact step_timerLoop hst
  | spurious =>
    obtain rfl := Option.some.inj hst
    exact step_worker rfl moves_notified
  | stop =>
    rw [step, stop] at hst
    obtain rfl := Option.some.inj hst
    split_ifs with hrunning
    · have hidle : s.stopper = .idle := by simpa [running] using hrunning
      have hview : view { s with stopper := .exchanged } = { s.view with stopped := true } := by
        simp [view, running, hidle, Stopper.notified]
      rw [hview]
      exact .stop
    · exact step_worker rfl (.stay _)
  | notifyAll =>
    rw [step, notifyAll] at hst
    split_ifs at hst with hexchanged
    obtain rfl := Option.some.inj hst
    have hworker : s.worker ≠ .deciding := hl
    have haway : s.worker.notified.place = .away := by
      cases hs : s.worker with
      | deciding => exact absurd hs hworker
      | _ => rfl
    have hview : view { s with worker := s.worker.notified, stopper := .joining } =
        { s.view with notified := true, place := fun _ => .away } := by
      simp [view, running, hexchanged, haway, Stopper.notified]
    rw [hview]
    exact .notifyAll (by simp [view, running, hexchanged]) fun _ hw =>
      hworker (Worker.place_eq_deciding.1 hw)
  | join =>
    rw [step, join] at hst
    split at hst
    · next hjoining _ =>
      obtain rfl := Option.some.inj hst
      have hview : view { s with stopper := .returned } = s.view := by
        simp [view, running, hjoining, Stopper.notified]
      rw [hview]
      exact .move fun _ => .stay _
    · cases hst

/-- If the thread is notified when it is not about to block, it is not blocked afterwards. -/
theorem not_lost {now : ℤ} (hs : (system now).ReachableIf Heard s) : ¬ s.Lost := by
  have hinit : (system now).init.view.Safe := fun h => absurd h Bool.false_ne_true
  have hsafe := CondVar.safe_of_reachableIf view hinit (fun _ _ _ => step_view) hs
  rintro ⟨hnotified, hblocked⟩
  have haway : s.worker.place = .away := (hsafe hnotified).2 ()
  rw [hblocked] at haway
  cases haway

/-- A thread that is about to block when it is notified is lost with its next step. -/
theorem lost_of_deciding (i : ℕ) (hworker : s.worker = .deciding) (hst : s.notifyAll = some s') :
    ∃ t, s'.timerLoop i = some t ∧ t.Lost := by
  rw [notifyAll, hworker] at hst
  split_ifs at hst
  obtain rfl := Option.some.inj hst
  exact ⟨_, rfl, rfl, rfl⟩

/-! ### The mutex -/

/-- The thread has the mutex. -/
def Worker.holds : Worker → Bool
  | entered | testing | deciding | passed | looking | early _ => true
  | _ => false

theorem Worker.holds_notified (worker : Worker) : worker.notified.holds = worker.holds := by
  cases worker <;> rfl

/-- The heap is not empty when the thread is to look at its top. -/
def Worker.Looks (running : Bool) : Worker → Prop
  | passed => running
  | looking => True
  | _ => False

structure Held (s : TimerLoop) : Prop where
  locked : s.locked = s.worker.holds
  heap : s.worker.Looks s.running → s.heap ≠ []

/-- The thread has the mutex while it looks at the heap. -/
theorem Held.look {i : ℕ} (h : s.Held) (hworker : s.worker = .looking)
    (hst : s.look i = some s') : s'.Held := by
  obtain ⟨hlocked, -⟩ := h
  rw [hworker] at hlocked
  rw [TimerLoop.look] at hst
  split at hst
  · split_ifs at hst
    · obtain rfl := Option.some.inj hst
      exact ⟨hlocked, False.elim⟩
    · obtain rfl := Option.some.inj hst
      exact ⟨rfl, False.elim⟩
    · obtain rfl := Option.some.inj hst
      exact ⟨rfl, False.elim⟩
  · cases hst

theorem Held.timerLoop {i : ℕ} (h : s.Held) (hst : s.timerLoop i = some s') : s'.Held := by
  obtain ⟨hlocked, hheap⟩ := id h
  rw [TimerLoop.timerLoop] at hst
  cases hworker : s.worker with
  | checking =>
    rw [hworker] at hst hlocked
    obtain rfl := Option.some.inj hst
    split_ifs
    · exact ⟨hlocked, False.elim⟩
    · exact ⟨hlocked, False.elim⟩
  | locking | woken =>
    rw [hworker] at hst
    dsimp only at hst
    split_ifs at hst
    obtain rfl := Option.some.inj hst
    exact ⟨rfl, False.elim⟩
  | entered =>
    rw [hworker] at hst hlocked
    obtain rfl := Option.some.inj hst
    split_ifs with hempty
    · exact ⟨hlocked, False.elim⟩
    · exact ⟨hlocked, fun _ => hempty⟩
  | testing =>
    rw [hworker] at hst hlocked
    obtain rfl := Option.some.inj hst
    split_ifs with hcond
    · refine ⟨hlocked, fun hrunning => hcond.resolve_left ?_⟩
      have hrunning : s.running = true := hrunning
      simp [hrunning]
    · exact ⟨hlocked, False.elim⟩
  | deciding | early deadline =>
    rw [hworker] at hst
    obtain rfl := Option.some.inj hst
    exact ⟨rfl, False.elim⟩
  | blocked | returned =>
    rw [hworker] at hst
    cases hst
  | passed =>
    rw [hworker] at hst hlocked hheap
    dsimp only at hst
    split_ifs at hst with hrunning
    · obtain rfl := Option.some.inj hst
      exact ⟨hlocked, fun _ => hheap hrunning⟩
    · obtain rfl := Option.some.inj hst
      exact ⟨rfl, False.elim⟩
  | looking =>
    rw [hworker] at hst
    exact h.look hworker hst
  | sleeping deadline | stirred =>
    rw [hworker] at hst hlocked
    dsimp only at hst
    split_ifs at hst
    obtain rfl := Option.some.inj hst
    exact ⟨hlocked, False.elim⟩
  | firing timer =>
    rw [hworker] at hst hlocked
    obtain rfl := Option.some.inj hst
    exact ⟨hlocked, False.elim⟩

theorem Worker.Looks.of_notified {running : Bool} {worker : Worker}
    (h : worker.notified.Looks running) : worker.Looks running := by
  cases worker <;> exact h

/-- A thread that looks when the service is stopped does so while it runs. -/
theorem Worker.Looks.mono {worker : Worker} (h : worker.Looks false) : worker.Looks true := by
  cases worker with
  | passed => cases h
  | _ => exact h

theorem Held.step {l : Label} (h : s.Held) (hst : s.step l = some s') : s'.Held := by
  have hnotified : s.locked = s.worker.notified.holds :=
    h.locked.trans s.worker.holds_notified.symm
  cases l with
  | tick elapsed => exact Option.some.inj hst ▸ { h with }
  | schedule type sessionId delay => exact Option.some.inj hst ▸ { h with }
  | push i =>
    rw [TimerLoop.step, push] at hst
    split_ifs at hst
    obtain ⟨timer, -, rfl⟩ := Option.map_eq_some_iff.1 hst
    exact ⟨h.locked, fun _ => List.cons_ne_nil _ _⟩
  | notifyOne =>
    rw [TimerLoop.step, notifyOne] at hst
    split_ifs at hst
    exact Option.some.inj hst ▸ ⟨hnotified, fun hlooks => h.heap hlooks.of_notified⟩
  | cancel id =>
    rw [TimerLoop.step, cancel] at hst
    split_ifs at hst
    · exact Option.some.inj hst ▸ h
    · exact Option.some.inj hst ▸ { h with }
  | loop i => exact h.timerLoop hst
  | spurious =>
    exact Option.some.inj hst ▸ ⟨hnotified, fun hlooks => h.heap hlooks.of_notified⟩
  | stop =>
    rw [TimerLoop.step, stop] at hst
    obtain rfl := Option.some.inj hst
    split_ifs with hrunning
    · refine ⟨h.locked, fun hlooks => h.heap ?_⟩
      rw [hrunning]
      exact hlooks.mono
    · exact h
  | notifyAll =>
    rw [TimerLoop.step, notifyAll] at hst
    split_ifs at hst with hexchanged
    obtain rfl := Option.some.inj hst
    have hrunning : s.running = false := by simp [running, hexchanged]
    exact ⟨hnotified, fun hlooks => h.heap (hrunning ▸ hlooks.of_notified)⟩
  | join =>
    rw [TimerLoop.step, join] at hst
    split at hst
    · next hjoining _ =>
      obtain rfl := Option.some.inj hst
      have hrunning : s.running = false := by simp [running, hjoining]
      exact ⟨h.locked, fun hlooks => h.heap (hrunning ▸ hlooks)⟩
    · cases hst

/-- There is always a timer to look at in a heap that is not empty. -/
theorem exists_look (hheap : s.heap ≠ []) : ∃ i s', s.look i = some s' := by
  obtain ⟨timer, hmem, hleast⟩ :=
    s.heap.toFinset.exists_min_image TimerService.Entry.deadline
      (List.toFinset_nonempty_iff s.heap |>.2 hheap)
  obtain ⟨i, hi⟩ := List.mem_iff_getElem?.1 (List.mem_toFinset.1 hmem)
  have hleast : ∀ other ∈ s.heap, timer.deadline ≤ other.deadline := fun other ho =>
    hleast other (List.mem_toFinset.2 ho)
  refine ⟨i, ?_⟩
  rw [look, hi]
  dsimp only
  rw [if_pos hleast]
  split
  · exact ⟨_, rfl⟩
  · exact ⟨_, rfl⟩

/-- The thread that joins the other is not kept for ever: it can go on, the other can, or
    the other is in a wait with a deadline. -/
theorem not_stuck {now : ℤ} (hs : (system now).ReachableIf Heard s)
    (hjoining : s.stopper = .joining) :
    (∃ i s', s.timerLoop i = some s') ∨ (∃ deadline, s.worker = .sleeping deadline) ∨
      ∃ s', s.join = some s' := by
  have hheld : s.Held := hs.invariant ⟨rfl, False.elim⟩ fun _ _ _ h _ hst => h.step hst
  have hblocked : s.worker ≠ .blocked := fun hblocked =>
    not_lost hs ⟨by rw [hjoining]; rfl, hblocked⟩
  have hrunning : s.running = false := by simp [running, hjoining]
  obtain ⟨hlocked, hheap⟩ := hheld
  simp only [timerLoop, join, hjoining]
  cases hworker : s.worker with
  | locking | woken | stirred =>
    rw [hworker] at hlocked
    exact .inl ⟨0, _, if_neg (by simp [hlocked, Worker.holds])⟩
  | passed => exact .inl ⟨0, _, if_neg (by simp [hrunning])⟩
  | looking =>
    rw [hworker] at hheap
    exact .inl (exists_look (hheap trivial))
  | checking | entered | testing | deciding | early | firing => exact .inl ⟨0, _, rfl⟩
  | sleeping deadline => exact .inr (.inl ⟨deadline, rfl⟩)
  | blocked => exact absurd hworker hblocked
  | returned => exact .inr (.inr ⟨_, rfl⟩)

end TimerLoop

end Yuviz.Gateway
