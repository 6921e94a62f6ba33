import Mathlib.Data.Finset.Basic
import Mathlib.Data.Int.Notation
import Mathlib.Data.List.Nodup
import Yuviz.System

/-!
# The timer service

Any thread schedules and cancels timers, and one thread fires them. A section
under the mutex is one step, and so is the increment of `next_id_`, which is
before it. The heap may have any of the timers of least deadline at its top.

A cancel puts the id into a set, from which the loop takes it when it pops the
timer. So a timer that is cancelled while it is in the heap is not fired, and no
timer is fired twice or early (`timersFire`). An id that is not in the heap
any more stays in the set: it is only in runs without such cancels
(`Pending`) that the set has no others than those in the heap.

An id is not used again before 2 ^ 64 timers have been scheduled; a *ticket* is
never used again.
-/

namespace Yuviz.Gateway

inductive TimerType
  | connectionTimeout
  | noSpeechTimeout
  | maxUtteranceTimeout
  | sttTimeout
  | llmTimeout
  | ttsTimeout
  | playbackTimeout
  | goodbyeTimeout
  | goodbyeConfirm
  | bargeInWindow
  | transferTimeout
  | finalizingTimeout
  | closeTimeout
  | rtpInactivity
  deriving DecidableEq

/-- An entry of the heap. -/
structure TimerService.Entry where
  ticket : ℕ
  deadline : ℤ
  id : BitVec 64
  type : TimerType
  sessionId : String
  deriving DecidableEq

/-- Where the thread of `timer_loop` is. -/
inductive TimerService.Worker
  /-- It is about to read `running_`. -/
  | checking
  /-- It has read `running_`, and is about to take the mutex. -/
  | entering
  /-- It has found the heap empty. -/
  | waiting
  /-- It is about to run the callback of the timer. -/
  | firing (timer : TimerService.Entry)
  | returned
  deriving DecidableEq

def TimerService.Worker.timer : TimerService.Worker → Option TimerService.Entry
  | firing timer => some timer
  | _ => none

@[simp] theorem TimerService.Worker.timer_checking : checking.timer = none := rfl

@[simp] theorem TimerService.Worker.timer_firing (timer : TimerService.Entry) :
    (firing timer).timer = some timer := rfl

structure TimerService where
  running : Bool
  nextId : BitVec 64
  heap : List TimerService.Entry
  cancelled : Finset (BitVec 64)
  /-- The clock. -/
  now : ℤ
  /-- The calls of `schedule` that have got their id, and are to take the mutex. -/
  scheduling : List TimerService.Entry
  worker : TimerService.Worker
  /-- The timers that have been fired, and when. -/
  fired : List (TimerService.Entry × ℤ)
  /-- How many timers have been scheduled. -/
  tickets : ℕ

namespace TimerService

inductive Label
  | tick (elapsed : ℕ)
  | schedule (type : TimerType) (sessionId : String) (delay : ℤ)
  /-- The push of the `i`-th of the calls of `schedule`. -/
  | push (i : ℕ)
  | cancel (id : BitVec 64)
  | start
  /-- A step of the loop, with the `i`-th entry at the top of the heap. -/
  | loop (i : ℕ)
  | stop

variable (s : TimerService)

def schedule (type : TimerType) (sessionId : String) (delay : ℤ) : TimerService :=
  { s with
    nextId := s.nextId + 1
    scheduling := s.scheduling ++ [⟨s.tickets, s.now + delay, s.nextId, type, sessionId⟩]
    tickets := s.tickets + 1 }

def push (i : ℕ) : Option TimerService :=
  (s.scheduling[i]?).map fun timer =>
    { s with
      heap := timer :: s.heap
      scheduling := s.scheduling.eraseIdx i }

def cancel (id : BitVec 64) : TimerService :=
  if id = 0 then s else { s with cancelled := insert id s.cancelled }

/-- The second call of two does nothing. A `stop` joins the thread, before there is another. -/
def start : Option TimerService :=
  if s.running then some s
  else if s.worker = .returned then some { s with running := true, worker := .checking }
  else none

/-- A round of `timer_loop`, once the heap is not empty. -/
def round (i : ℕ) : Option TimerService :=
  match s.heap[i]? with
  | some timer =>
    if ∀ other ∈ s.heap, timer.deadline ≤ other.deadline then
      if s.now < timer.deadline then some { s with worker := .checking }
      else some
        { s with
          heap := s.heap.eraseIdx i
          cancelled := s.cancelled.erase timer.id
          worker := if timer.id ∈ s.cancelled then .checking else .firing timer }
    else none
  | none => none

def timerLoop (i : ℕ) : Option TimerService :=
  match s.worker with
  | .checking => some { s with worker := if s.running then .entering else .returned }
  | .entering => if s.heap = [] then some { s with worker := .waiting } else s.round i
  | .waiting => if s.running then s.round i else some { s with worker := .returned }
  | .firing timer => some
    { s with
      worker := .checking
      fired := s.fired ++ [(timer, s.now)] }
  | .returned => none

def step (s : TimerService) : Label → Option TimerService
  | .tick elapsed => some { s with now := s.now + elapsed }
  | .schedule type sessionId delay => some (s.schedule type sessionId delay)
  | .push i => s.push i
  | .cancel id => some (s.cancel id)
  | .start => s.start
  | .loop i => s.timerLoop i
  | .stop => some { s with running := false }

def system (now : ℤ) : System TimerService Label where
  init := ⟨false, 1, [], ∅, now, [], .returned, [], 0⟩
  step := step

/-! ## What is fired -/

/-- No timer is fired twice, or before its deadline. -/
structure Punctual : Prop where
  once : (s.fired.map fun f => f.1.ticket).Nodup
  due : ∀ f ∈ s.fired, f.1.deadline ≤ f.2

/-- A step of the loop pops a timer of least deadline, if it pops one. -/
def PopsLeast : Prop :=
  ∀ i s', s.step (.loop i) = some s' → s'.heap = s.heap ∨ ∃ timer, s.heap[i]? = some timer ∧
    s'.heap = s.heap.eraseIdx i ∧ timer.deadline ≤ s.now ∧
    ∀ other ∈ s.heap, timer.deadline ≤ other.deadline

/-- The ids that are cancelled are those of timers in the heap. -/
def Tidy : Prop := ∀ id ∈ s.cancelled, ∃ timer ∈ s.heap, timer.id = id

/-- A timer that is cancelled is in the heap, and an id that is given to one is
    not used by another. -/
def Pending : Label → Prop
  | .cancel id => id = 0 ∨ ∃ timer ∈ s.heap, timer.id = id
  | .schedule _ _ _ => s.nextId ≠ 0 ∧ ∀ timer ∈ s.heap ++ s.scheduling, timer.id ≠ s.nextId
  | _ => True

instance : DecidablePred s.Pending
  | .cancel id => inferInstanceAs (Decidable (id = 0 ∨ ∃ timer ∈ s.heap, timer.id = id))
  | .schedule _ _ _ => inferInstanceAs (Decidable (s.nextId ≠ 0 ∧ ∀ timer ∈ s.heap ++ s.scheduling,
      timer.id ≠ s.nextId))
  | .tick _ | .push _ | .start | .loop _ | .stop => inferInstanceAs (Decidable True)

variable {s} {s' : TimerService} {l : Label} {timer : Entry}

@[simp] theorem heap_cancel (id : BitVec 64) : (s.cancel id).heap = s.heap := by
  rw [cancel]
  split_ifs <;> rfl

/-- A round waits, or pops the top of the heap. -/
theorem round_eq_some {i : ℕ} (h : s.round i = some s') :
    s' = { s with worker := .checking } ∨
    ∃ timer, s.heap[i]? = some timer ∧ timer.deadline ≤ s.now ∧
      (∀ other ∈ s.heap, timer.deadline ≤ other.deadline) ∧
      s' =
        { s with
          heap := s.heap.eraseIdx i
          cancelled := s.cancelled.erase timer.id
          worker := if timer.id ∈ s.cancelled then .checking else .firing timer } := by
  rw [round] at h
  split at h
  · rename_i timer hi
    by_cases hleast : ∀ other ∈ s.heap, timer.deadline ≤ other.deadline
    · rw [if_pos hleast] at h
      by_cases hnow : s.now < timer.deadline
      · rw [if_pos hnow] at h
        exact .inl (Option.some.inj h).symm
      · rw [if_neg hnow] at h
        exact .inr ⟨timer, hi, not_lt.1 hnow, hleast, (Option.some.inj h).symm⟩
    · rw [if_neg hleast] at h
      cases h
  · cases h

/-- What a step of the loop can do: to go on, to pop the top of the heap, or to
    run a callback. -/
theorem timerLoop_eq_some {i : ℕ} (h : s.timerLoop i = some s') :
    (∃ w : Worker, w.timer = none ∧ s.worker.timer = none ∧ s' = { s with worker := w }) ∨
    (∃ timer, s.heap[i]? = some timer ∧ timer.deadline ≤ s.now ∧ s.worker.timer = none ∧
      (∀ other ∈ s.heap, timer.deadline ≤ other.deadline) ∧
      s' =
        { s with
          heap := s.heap.eraseIdx i
          cancelled := s.cancelled.erase timer.id
          worker := if timer.id ∈ s.cancelled then .checking else .firing timer }) ∨
    ∃ timer, s.worker.timer = some timer ∧
      s' = { s with worker := .checking, fired := s.fired ++ [(timer, s.now)] } := by
  have hround (hw : s.worker.timer = none) (h : s.round i = some s') :
      (∃ w : Worker, w.timer = none ∧ s.worker.timer = none ∧ s' = { s with worker := w }) ∨
      ∃ timer, s.heap[i]? = some timer ∧ timer.deadline ≤ s.now ∧ s.worker.timer = none ∧
        (∀ other ∈ s.heap, timer.deadline ≤ other.deadline) ∧
        s' =
          { s with
            heap := s.heap.eraseIdx i
            cancelled := s.cancelled.erase timer.id
            worker := if timer.id ∈ s.cancelled then .checking else .firing timer } :=
    (round_eq_some h).imp (fun heq => ⟨.checking, rfl, hw, heq⟩)
      fun ⟨timer, hi, hdue, hleast, heq⟩ => ⟨timer, hi, hdue, hw, hleast, heq⟩
  rw [timerLoop] at h
  split at h
  · rename_i hw
    refine .inl ⟨_, ?_, by rw [hw]; rfl, (Option.some.inj h).symm⟩
    split <;> rfl
  · rename_i hw
    split_ifs at h
    · exact .inl ⟨_, rfl, by rw [hw]; rfl, (Option.some.inj h).symm⟩
    · exact (hround (by rw [hw]; rfl) h).imp_right Or.inl
  · rename_i hw
    split_ifs at h
    · exact (hround (by rw [hw]; rfl) h).imp_right Or.inl
    · exact .inl ⟨_, rfl, by rw [hw]; rfl, (Option.some.inj h).symm⟩
  · rename_i timer hw
    exact .inr (.inr ⟨timer, by rw [hw]; rfl, (Option.some.inj h).symm⟩)
  · cases h

theorem start_eq_some (h : s.start = some s') :
    s' = s ∨ s.worker = .returned ∧ s' = { s with running := true, worker := .checking } := by
  rw [start] at h
  split_ifs at h with _ hw
  · exact .inl (Option.some.inj h).symm
  · exact .inr ⟨hw, (Option.some.inj h).symm⟩

theorem popsLeast : s.PopsLeast := by
  intro i s' h
  rcases timerLoop_eq_some h with ⟨w, -, -, rfl⟩ | ⟨timer, hi, hdue, -, hleast, rfl⟩ | ⟨_, -, rfl⟩
  · exact .inl rfl
  · exact .inr ⟨timer, hi, rfl, hdue, hleast⟩
  · exact .inl rfl

/-! ## Tickets -/

/-- How many timers have the ticket, of those that may be fired or have been. -/
def holders (s : TimerService) (n : ℕ) : ℕ :=
  s.heap.countP (·.ticket = n) + s.scheduling.countP (·.ticket = n) +
    s.worker.timer.toList.countP (·.ticket = n) + s.fired.countP fun f => f.1.ticket = n

structure Wf (s : TimerService) : Prop where
  once : ∀ n, s.holders n ≤ 1
  tickets : ∀ n, 0 < s.holders n → n < s.tickets
  firing : ∀ timer, s.worker.timer = some timer → timer.deadline ≤ s.now
  due : ∀ f ∈ s.fired, f.1.deadline ≤ f.2

theorem countP_eraseIdx {α : Type*} {l : List α} {i : ℕ} {x : α} (h : l[i]? = some x)
    (p : α → Bool) : l.countP p = (l.eraseIdx i).countP p + if p x then 1 else 0 := by
  obtain ⟨hlt, rfl⟩ := List.getElem?_eq_some_iff.1 h
  rw [← (List.getElem_cons_eraseIdx_perm hlt).countP_eq p, List.countP_cons]

/-- The timers have the tickets they had. -/
theorem Wf.of_holders (h : s.Wf) (hn : ∀ n, s'.holders n = s.holders n)
    (htickets : s'.tickets = s.tickets)
    (hfiring : ∀ timer, s'.worker.timer = some timer → timer.deadline ≤ s'.now)
    (hdue : ∀ f ∈ s'.fired, f.1.deadline ≤ f.2) : s'.Wf where
  once n := hn n ▸ h.once n
  tickets n hpos := htickets ▸ h.tickets n (hn n ▸ hpos)
  firing := hfiring
  due := hdue

theorem Wf.step (h : s.Wf) (hst : s.step l = some s') : s'.Wf := by
  cases l with
  | tick elapsed =>
    obtain rfl := Option.some.inj hst
    refine h.of_holders (fun _ => rfl) rfl (fun timer ht => (h.firing timer ht).trans ?_) h.due
    exact Int.le_add_of_nonneg_right (Int.natCast_nonneg _)
  | schedule type sessionId delay =>
    obtain rfl := Option.some.inj hst
    have hholders (n : ℕ) : (s.schedule type sessionId delay).holders n =
        s.holders n + if s.tickets = n then 1 else 0 := by
      simp only [holders, schedule, List.countP_append, List.countP_singleton, decide_eq_true_eq]
      omega
    -- The ticket is new.
    have hnew : s.holders s.tickets = 0 := by
      by_contra hpos
      exact (h.tickets _ (Nat.pos_of_ne_zero hpos)).false
    refine { h with once := fun n => ?_, tickets := fun n hpos => ?_ }
    · rw [hholders]
      split_ifs with heq
      · rw [← heq, hnew]
      · exact h.once n
    · rw [hholders] at hpos
      split_ifs at hpos with heq
      · exact heq ▸ Nat.lt_succ_self _
      · exact Nat.lt_succ_of_lt (h.tickets n hpos)
  | push i =>
    obtain ⟨timer, hi, rfl⟩ := Option.map_eq_some_iff.1 hst
    refine h.of_holders (fun n => ?_) rfl h.firing h.due
    have hcount := countP_eraseIdx hi fun t => decide (t.ticket = n)
    simp only [holders, List.countP_cons]
    omega
  | cancel id =>
    obtain rfl := Option.some.inj hst
    rw [cancel]
    split_ifs
    · exact h
    · exact { h with }
  | start =>
    rcases start_eq_some hst with rfl | ⟨hw, rfl⟩
    · exact h
    · refine h.of_holders (fun n => ?_) rfl nofun h.due
      rw [holders, holders, hw]
      rfl
  | loop i =>
    rcases timerLoop_eq_some hst with ⟨w, hw, hnone, rfl⟩ | ⟨timer, hi, hdue, hnone, -, rfl⟩ |
      ⟨timer, ht, rfl⟩
    · refine h.of_holders (fun n => ?_) rfl (fun timer ht => ?_) h.due
      · rw [holders, holders, hw, hnone]
      · cases hw.symm.trans ht
    · have hcount (n : ℕ) := countP_eraseIdx hi fun t => decide (t.ticket = n)
      -- A timer that is cancelled has its ticket no more.
      have hle (n : ℕ) : holders { s with
          heap := s.heap.eraseIdx i
          cancelled := s.cancelled.erase timer.id
          worker := if timer.id ∈ s.cancelled then .checking else .firing timer } n ≤
          s.holders n := by
        have hn := hcount n
        simp only [holders, hnone, Option.toList_none, List.countP_nil]
        split
        · rw [Worker.timer_checking, Option.toList_none, List.countP_nil]
          omega
        · rw [Worker.timer_firing, Option.toList_some, List.countP_singleton]
          omega
      refine ⟨fun n => (hle n).trans (h.once n), fun n hpos => h.tickets n (hpos.trans_le (hle n)),
        fun t ht => ?_, h.due⟩
      dsimp only at ht
      split_ifs at ht
      · cases ht
      · exact Option.some.inj ht ▸ hdue
    · refine h.of_holders (fun n => ?_) rfl nofun fun f hf => ?_
      · simp only [holders, ht, Option.toList_some, Worker.timer_checking, Option.toList_none,
          List.countP_nil, List.countP_append, List.countP_singleton]
        omega
      · rcases List.mem_append.1 hf with hf | hf
        · exact h.due f hf
        · exact List.mem_singleton.1 hf ▸ h.firing timer ht
  | stop => exact Option.some.inj hst ▸ { h with }

theorem Wf.punctual (h : s.Wf) : s.Punctual := by
  refine ⟨List.nodup_iff_count_le_one.2 fun n => ?_, h.due⟩
  rw [List.count_eq_countP, List.countP_map]
  refine le_trans (le_of_eq (List.countP_congr fun f _ => ?_))
    ((Nat.le_add_left _ _).trans (h.once n))
  simp

/-- Of two timers with one ticket, one is not there. -/
theorem Wf.not_mem_of_heap (h : s.Wf) (ht : timer ∈ s.heap) :
    timer.ticket < s.tickets ∧ timer ∉ s.scheduling ∧ s.worker.timer ≠ some timer ∧
      ∀ f ∈ s.fired, f.1 ≠ timer := by
  have hn := h.once timer.ticket
  have hlt := h.tickets timer.ticket
  have hheap : 0 < s.heap.countP (·.ticket = timer.ticket) :=
    List.countP_pos_iff.2 ⟨timer, ht, by simp⟩
  rw [holders] at hn hlt
  refine ⟨hlt (by omega), fun hmem => ?_, fun heq => ?_, fun f hf heq => ?_⟩
  · have : 0 < s.scheduling.countP (·.ticket = timer.ticket) :=
      List.countP_pos_iff.2 ⟨timer, hmem, by simp⟩
    omega
  · rw [heq, Option.toList_some, List.countP_singleton] at hn
    simp only [decide_true, if_true] at hn
    omega
  · have : 0 < s.fired.countP fun f => f.1.ticket = timer.ticket :=
      List.countP_pos_iff.2 ⟨f, hf, by simp [heq]⟩
    omega

theorem Wf.ticket_lt_of_scheduling (h : s.Wf) (ht : timer ∈ s.scheduling) :
    timer.ticket < s.tickets := by
  have hscheduling : 0 < s.scheduling.countP (·.ticket = timer.ticket) :=
    List.countP_pos_iff.2 ⟨timer, ht, by simp⟩
  refine h.tickets _ ?_
  rw [holders]
  omega

/-! ## Ids -/

theorem mem_of_mem_eraseIdx {i : ℕ} {t : Entry} {heap : List Entry} (hi : heap[i]? = some timer)
    (ht : t ∈ heap) : t = timer ∨ t ∈ heap.eraseIdx i := by
  obtain ⟨hlt, rfl⟩ := List.getElem?_eq_some_iff.1 hi
  exact List.mem_cons.1 ((List.getElem_cons_eraseIdx_perm hlt).mem_iff.2 ht)

/-- No two timers to be fired have one id. -/
structure Named (s : TimerService) : Prop where
  nonzero : ∀ timer ∈ s.heap ++ s.scheduling, timer.id ≠ 0
  ids : ∀ id, s.heap.countP (·.id = id) + s.scheduling.countP (·.id = id) ≤ 1

/-- The next id is not that of a timer to be fired. -/
def FreshId (s : TimerService) : Prop :=
  s.nextId ≠ 0 ∧ ∀ timer ∈ s.heap ++ s.scheduling, timer.id ≠ s.nextId

instance : Decidable s.FreshId := inferInstanceAs (Decidable (_ ∧ _))

theorem Named.schedule {type : TimerType} {sessionId : String} {delay : ℤ} (h : s.Named)
    (hfresh : s.FreshId) :
    (s.schedule type sessionId delay).Named := by
  obtain ⟨hzero, hfresh⟩ := hfresh
  refine ⟨?_, fun id => ?_⟩
  · simp only [TimerService.schedule, List.mem_append, List.mem_singleton]
    rintro timer (ht | ht | rfl)
    · exact h.nonzero timer (List.mem_append_left _ ht)
    · exact h.nonzero timer (List.mem_append_right _ ht)
    · exact hzero
  · have hid := h.ids id
    simp only [TimerService.schedule, List.countP_append, List.countP_singleton, decide_eq_true_eq]
    split_ifs with heq
    · -- No other timer has the id.
      subst heq
      have hnone {l : List Entry} (hsub : ∀ timer ∈ l, timer ∈ s.heap ++ s.scheduling) :
          l.countP (·.id = s.nextId) = 0 :=
        List.countP_eq_zero.2 fun timer ht => by simpa using hfresh timer (hsub timer ht)
      rw [hnone fun _ ht => List.mem_append_left _ ht,
        hnone fun _ ht => List.mem_append_right _ ht]
    · exact hid

theorem Named.step (h : s.Named)
    (hl : ∀ type sessionId delay, l = .schedule type sessionId delay → s.FreshId)
    (hst : s.step l = some s') : s'.Named := by
  cases l with
  | tick elapsed => exact Option.some.inj hst ▸ { h with }
  | schedule type sessionId delay =>
    obtain rfl := Option.some.inj hst
    exact h.schedule (hl _ _ _ rfl)
  | push i =>
    obtain ⟨timer, hi, rfl⟩ := Option.map_eq_some_iff.1 hst
    refine ⟨fun t ht => ?_, fun id => ?_⟩
    · refine h.nonzero t ?_
      rcases List.mem_append.1 ht with ht | ht
      · rcases List.mem_cons.1 ht with rfl | ht
        · exact List.mem_append_right _ (List.mem_of_getElem? hi)
        · exact List.mem_append_left _ ht
      · exact List.mem_append_right _ (List.mem_of_mem_eraseIdx ht)
    · have hn := h.ids id
      have hcount := countP_eraseIdx hi fun t => decide (t.id = id)
      simp only [List.countP_cons]
      omega
  | cancel id =>
    obtain rfl := Option.some.inj hst
    rw [cancel]
    split_ifs
    · exact h
    · exact { h with }
  | start =>
    rcases start_eq_some hst with rfl | ⟨-, rfl⟩
    · exact h
    · exact { h with }
  | loop i =>
    rcases timerLoop_eq_some hst with ⟨w, -, -, rfl⟩ | ⟨timer, hi, -, -, -, rfl⟩ | ⟨_, -, rfl⟩
    · exact { h with }
    · refine ⟨fun t ht => h.nonzero t ?_, fun id => ?_⟩
      · exact (List.mem_append.1 ht).elim
          (fun ht => List.mem_append_left _ (List.mem_of_mem_eraseIdx ht)) (List.mem_append_right _)
      · have hn := h.ids id
        have hcount := countP_eraseIdx hi fun t => decide (t.id = id)
        dsimp only
        omega
    · exact { h with }
  | stop => exact Option.some.inj hst ▸ { h with }

/-- The timers left in the heap have other ids than the one that is popped. -/
theorem Named.id_ne (h : s.Named) {i : ℕ} {t : Entry} (hi : s.heap[i]? = some timer)
    (ht : t ∈ s.heap.eraseIdx i) : t.id ≠ timer.id := by
  intro heq
  have hone := h.ids t.id
  have hcount := countP_eraseIdx hi fun x => decide (x.id = t.id)
  have hrest : 0 < (s.heap.eraseIdx i).countP (·.id = t.id) :=
    List.countP_pos_iff.2 ⟨t, ht, by simp⟩
  rw [if_pos (decide_eq_true heq.symm)] at hcount
  omega

/-! ## Cancelled timers -/

/-- No two timers to be fired have one id, and the ids that are cancelled are theirs. -/
structure Distinguished (s : TimerService) : Prop where
  nonzero : ∀ timer ∈ s.heap ++ s.scheduling, timer.id ≠ 0
  ids : ∀ id, s.heap.countP (·.id = id) + s.scheduling.countP (·.id = id) ≤ 1
  tidy : s.Tidy

theorem Tidy.step (h : s.Tidy) (hl : s.Pending l) (hst : s.step l = some s') : s'.Tidy := by
  cases l with
  | tick elapsed | schedule type sessionId delay | stop =>
    obtain rfl := Option.some.inj hst
    exact h
  | push i =>
    obtain ⟨timer, hi, rfl⟩ := Option.map_eq_some_iff.1 hst
    intro id hid
    obtain ⟨t, ht, heq⟩ := h id hid
    exact ⟨t, List.mem_cons_of_mem _ ht, heq⟩
  | cancel id =>
    obtain rfl := Option.some.inj hst
    rw [cancel]
    split_ifs with hzero
    · exact h
    · intro id' hid
      rcases Finset.mem_insert.1 hid with rfl | hid
      · exact hl.resolve_left hzero
      · exact h id' hid
  | start =>
    rcases start_eq_some hst with rfl | ⟨-, rfl⟩
    · exact h
    · exact h
  | loop i =>
    rcases timerLoop_eq_some hst with ⟨w, -, -, rfl⟩ | ⟨timer, hi, -, -, -, rfl⟩ | ⟨_, -, rfl⟩
    · exact h
    · intro id hid
      obtain ⟨hne, hid⟩ := Finset.mem_erase.1 hid
      obtain ⟨t, ht, rfl⟩ := h id hid
      rcases mem_of_mem_eraseIdx hi ht with rfl | ht
      · exact absurd rfl hne
      · exact ⟨t, ht, rfl⟩
    · exact h

theorem Distinguished.named (h : s.Distinguished) : s.Named := ⟨h.nonzero, h.ids⟩

theorem Distinguished.step (h : s.Distinguished) (hl : s.Pending l) (hst : s.step l = some s') :
    s'.Distinguished := by
  have hnamed : s'.Named := h.named.step (fun _ _ _ heq => by rw [heq] at hl; exact hl) hst
  exact ⟨hnamed.nonzero, hnamed.ids, h.tidy.step hl hst⟩

/-- The timer is not fired, and will not be. -/
structure Dead (timer : Entry) (s : TimerService) : Prop where
  ticket : timer.ticket < s.tickets
  heap : timer ∈ s.heap → timer.id ∈ s.cancelled
  scheduling : timer ∉ s.scheduling
  firing : s.worker.timer ≠ some timer
  fired : ∀ f ∈ s.fired, f.1 ≠ timer

theorem Dead.step (hd : s.Dead timer) (h : s.Wf) (hids : s.Distinguished)
    (hst : s.step l = some s') : s'.Dead timer := by
  cases l with
  | tick elapsed => exact Option.some.inj hst ▸ { hd with }
  | schedule type sessionId delay =>
    obtain rfl := Option.some.inj hst
    refine { hd with ticket := Nat.lt_succ_of_lt hd.ticket, scheduling := fun hmem => ?_ }
    rcases List.mem_append.1 hmem with hmem | hmem
    · exact hd.scheduling hmem
    · exact hd.ticket.ne (congrArg Entry.ticket (List.mem_singleton.1 hmem))
  | push i =>
    obtain ⟨t, hi, rfl⟩ := Option.map_eq_some_iff.1 hst
    refine { hd with
      heap := fun hmem => ?_
      scheduling := fun hmem => hd.scheduling (List.mem_of_mem_eraseIdx hmem) }
    rcases List.mem_cons.1 hmem with rfl | hmem
    · exact absurd (List.mem_of_getElem? hi) hd.scheduling
    · exact hd.heap hmem
  | cancel id =>
    obtain rfl := Option.some.inj hst
    rw [cancel]
    split_ifs
    · exact hd
    · exact { hd with heap := fun hmem => Finset.mem_insert_of_mem (hd.heap hmem) }
  | start =>
    rcases start_eq_some hst with rfl | ⟨-, rfl⟩
    · exact hd
    · exact { hd with firing := nofun }
  | loop i =>
    rcases timerLoop_eq_some hst with ⟨w, hw, -, rfl⟩ | ⟨t, hi, -, -, -, rfl⟩ | ⟨t, ht, rfl⟩
    · refine { hd with firing := fun heq => ?_ }
      cases hw.symm.trans heq
    · have hmem := List.mem_of_getElem? hi
      refine { hd with heap := fun ht => ?_, firing := fun heq => ?_ }
      · have hin : timer.id ∈ s.cancelled := hd.heap (List.mem_of_mem_eraseIdx ht)
        exact Finset.mem_erase.2 ⟨hids.named.id_ne hi ht, hin⟩
      · dsimp only at heq
        split_ifs at heq with hin
        · cases heq
        · obtain rfl := Option.some.inj heq
          exact hin (hd.heap hmem)
    · refine { hd with firing := nofun, fired := fun f hf => ?_ }
      rcases List.mem_append.1 hf with hf | hf
      · exact hd.fired f hf
      · rw [List.mem_singleton.1 hf]
        rintro rfl
        exact hd.firing ht
  | stop => exact Option.some.inj hst ▸ { hd with }

theorem Wf.init (now : ℤ) : (system now).init.Wf where
  once _ := Nat.zero_le 1
  tickets _ hpos := absurd hpos (lt_irrefl 0)
  firing := nofun
  due := nofun

theorem Distinguished.init (now : ℤ) : (system now).init.Distinguished where
  nonzero := nofun
  ids _ := Nat.zero_le 1
  tidy := nofun

theorem Dead.of_cancel (h : s.Wf) (hids : s.Distinguished) (ht : timer ∈ s.heap) :
    (s.cancel timer.id).Dead timer := by
  obtain ⟨hlt, hscheduling, hfiring, hfired⟩ := h.not_mem_of_heap ht
  rw [cancel, if_neg (hids.nonzero timer (List.mem_append_left _ ht))]
  exact ⟨hlt, fun _ => Finset.mem_insert_self _ _, hscheduling, hfiring, hfired⟩

/-- A timer that is cancelled while it is in the heap is not fired. -/
theorem not_fired_of_cancel {now : ℤ} (h : s.Wf) (hids : s.Distinguished) (ht : timer ∈ s.heap)
    {s₁ s₂ : TimerService} (hst : s.step (.cancel timer.id) = some s₁)
    (hs : ((system now).startingFrom s₁).ReachableIf Pending s₂) : ∀ f ∈ s₂.fired, f.1 ≠ timer := by
  have hpending : s.Pending (.cancel timer.id) := .inr ⟨timer, ht, rfl⟩
  have hinit : s₁.Wf ∧ s₁.Distinguished ∧ s₁.Dead timer :=
    ⟨h.step hst, hids.step hpending hst, Option.some.inj hst ▸ .of_cancel h hids ht⟩
  have hinv := hs.invariant (I := fun s => s.Wf ∧ s.Distinguished ∧ s.Dead timer) hinit
    fun s l s' ⟨h, hids, hdead⟩ hg hst => ⟨h.step hst, hids.step hg hst, hdead.step h hids hst⟩
  exact hinv.2.2.fired

/-- No timer is fired twice or early, and of those in the heap one of least
    deadline is popped. If only timers in the heap are cancelled, they are not
    fired, and no other id is kept. -/
theorem timersFire (now : ℤ) :
    (∀ s, (system now).Reachable s → s.Punctual ∧ s.PopsLeast) ∧
    ∀ s, (system now).ReachableIf Pending s → s.Tidy ∧
      ∀ timer ∈ s.heap, ∀ s₁, s.step (.cancel timer.id) = some s₁ →
        ∀ s₂, ((system now).startingFrom s₁).ReachableIf Pending s₂ →
          ∀ f ∈ s₂.fired, f.1 ≠ timer := by
  refine ⟨fun s hs => ?_, fun s hs => ?_⟩
  · have h : s.Wf := hs.invariant (Wf.init now) fun _ _ _ => Wf.step
    exact ⟨h.punctual, popsLeast⟩
  · have h := hs.invariant (I := fun s => s.Wf ∧ s.Distinguished)
      ⟨Wf.init now, Distinguished.init now⟩
      fun s l s' ⟨h, hids⟩ hg hst => ⟨h.step hst, hids.step hg hst⟩
    exact ⟨h.2.tidy, fun timer ht s₁ hst s₂ hs₂ => not_fired_of_cancel h.1 h.2 ht hst hs₂⟩

/-- The timer of a call that connects is cancelled when it has fired. -/
def lateCancel : List Label :=
  [.start, .schedule .connectionTimeout "c1" 10000, .push 0, .tick 10000, .loop 0, .loop 0, .loop 0,
    .cancel 1]

/-- Its id is kept. -/
theorem not_tidy_lateCancel : ¬ ∀ s, (system 0).Reachable s → s.Tidy := by
  intro htidy
  have hrun : ((system 0).exec (system 0).init lateCancel).map
      (fun s => (s.heap, decide (1 ∈ s.cancelled))) = some ([], true) := by
    decide
  obtain ⟨s, hs, heq⟩ := Option.map_eq_some_iff.1 hrun
  obtain ⟨hheap, hcancelled⟩ := Prod.mk.inj heq
  obtain ⟨timer, hmem, -⟩ := htidy s (.exec .init hs) 1 (of_decide_eq_true hcancelled)
  rw [hheap] at hmem
  exact List.not_mem_nil hmem

/-- Two timers of one call: that for the recognition is cancelled before its deadline. -/
def timelyCancel : List Label :=
  [.start, .schedule .maxUtteranceTimeout "c1" 45000, .push 0, .schedule .sttTimeout "c1" 8000,
    .push 0]

theorem timersFire_timelyCancel : ∃ s s₁ s₂, (system 0).ReachableIf Pending s ∧
    s.step (.cancel 2) = some s₁ ∧
    ((system 0).startingFrom s₁).ReachableIf Pending s₂ ∧
    s₂.fired = [(⟨0, 45000, 1, .maxUtteranceTimeout, "c1"⟩, 45000)] ∧ s₂.Punctual ∧ s₂.Tidy ∧
    ∀ f ∈ s₂.fired, f.1 ≠ ⟨1, 8000, 2, .sttTimeout, "c1"⟩ := by
  have hrun : ((system 0).execIf Pending (system 0).init timelyCancel).map
      (fun s => decide (⟨1, 8000, 2, .sttTimeout, "c1"⟩ ∈ s.heap)) = some true := by
    decide
  have hrest : ((((system 0).execIf Pending (system 0).init timelyCancel).bind fun s =>
      s.step (.cancel 2)).bind fun s =>
      (system 0).execIf Pending s [.tick 45000, .loop 0, .loop 0, .loop 0, .loop 0, .loop 0]).map
      (·.fired) = some [(⟨0, 45000, 1, .maxUtteranceTimeout, "c1"⟩, 45000)] := by
    decide
  obtain ⟨s, hs, hmem⟩ := Option.map_eq_some_iff.1 hrun
  obtain ⟨s₂, hs₂, hfired⟩ := Option.map_eq_some_iff.1 hrest
  rw [hs, Option.bind_some] at hs₂
  obtain ⟨s₁, hst, hs₂⟩ := Option.bind_eq_some_iff.1 hs₂
  have hreach : (system 0).ReachableIf Pending s := .execIf .init hs
  have hpending : s.Pending (.cancel 2) := .inr ⟨_, of_decide_eq_true hmem, rfl⟩
  have hreach₁ : (system 0).ReachableIf Pending s₁ := .step hreach hpending hst
  have hreach₂ : (system 0).ReachableIf Pending s₂ := hreach₁.execIf hs₂
  have hafter : ((system 0).startingFrom s₁).ReachableIf Pending s₂ :=
    System.ReachableIf.init.execIf hs₂
  exact ⟨s, s₁, s₂, hreach, hst, hafter, hfired, ((timersFire 0).1 s₂ hreach₂.reachable).1,
    ((timersFire 0).2 s₂ hreach₂).1,
    ((timersFire 0).2 s hreach).2 _ (of_decide_eq_true hmem) s₁ hst s₂ hafter⟩

end TimerService

end Yuviz.Gateway
