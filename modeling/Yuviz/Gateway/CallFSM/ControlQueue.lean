import Yuviz.Gateway.CallFSM.Timers
import Yuviz.Gateway.CallFSM.Handlers
import Mathlib.Data.List.Perm.Basic

/-!
# Timer fires through the control queue

A `QueuedFSM` is the machine as its session runs it: the timer thread takes an
expired timer out of the service, then posts a fire to the control queue, and
the control thread processes the queue in order. A fire carries the type of its
timer only, so that it may be *stale*: its timer may have been cancelled, or
replaced, since it expired.

* `reachable_fire_iff`: as long as the fires processed are those of the active
  timer, or the machine is closed, no armed timer is orphaned, and the next fire
  is harmless exactly if it is one of these itself.
* `not_reachable_harmless`: in general a stale fire does harm. It takes the
  active timer for consumed, and leaves it behind, armed.
-/

namespace Yuviz.Gateway

/-- An item of the control queue. The machine only gets the type of a fired
    timer: its id and its visit are not read. -/
inductive ControlItem
  | trigger (t : CallFSM.Trigger)
  | fire (timer : Timer)
  deriving DecidableEq, Repr

/-- The timer of a fire. -/
def ControlItem.timer? : ControlItem → Option Timer
  | .fire timer => some timer
  | .trigger _ => none

/-- The machine, the armed timers, the timers expired and not posted yet, and
    the control queue. -/
structure QueuedFSM where
  fsm : CallFSM := {}
  nextId : FsmTimerId := 1
  armed : List Timer := []
  expired : List Timer := []
  queue : List ControlItem := []
  deriving DecidableEq, Repr

namespace QueuedFSM

/-- A step posts a trigger to the control queue, takes an expired timer out of
    the service, posts its fire, or processes the next item of the queue. -/
inductive Label
  | post (t : CallFSM.Trigger)
  | expire (timer : Timer)
  | postFire (timer : Timer)
  | control
  deriving DecidableEq, Repr

/-- The trigger method an item calls. -/
def process (cfg : CallFsmTimerConfig) : ControlItem → CallFSM.Exec → CallFSM.Exec
  | .trigger t => CallFSM.run cfg t
  | .fire timer => CallFSM.onTimerFired cfg timer.type

/-- The session after an item with the result `x`, the items `rest` being left
    in the queue. -/
def after (s : QueuedFSM) (rest : List ControlItem) (x : CallFSM.Exec) : QueuedFSM :=
  { s with
    fsm := x.fsm
    nextId := x.nextId
    armed := applyCalls s.armed x.calls
    queue := rest }

def step (cfg : CallFsmTimerConfig) (s : QueuedFSM) : Label → Option QueuedFSM
  | .post t => some { s with queue := s.queue ++ [.trigger t] }
  | .expire timer =>
    if timer ∈ s.armed then
      some { s with armed := s.armed.erase timer, expired := s.expired ++ [timer] }
    else none
  | .postFire timer =>
    if timer ∈ s.expired then
      some { s with expired := s.expired.erase timer, queue := s.queue ++ [.fire timer] }
    else none
  | .control =>
    match s.queue with
    | [] => none
    | item :: rest => some (s.after rest (process cfg item ⟨s.fsm, s.nextId, []⟩))

def system (cfg : CallFsmTimerConfig) : System QueuedFSM Label where
  init := {}
  step := step cfg

/-! ## Harmless fires -/

/-- The fire of `timer` does no harm to the machine `f`: what it changes or
    calls is due to a timer armed in the current visit, and it changes and
    calls nothing if the timer is not the active one any more. -/
structure Harmless (cfg : CallFsmTimerConfig) (f : CallFSM) (n : FsmTimerId) (timer : Timer) :
    Prop where
  visit : (CallFSM.onTimerFired cfg timer.type ⟨f, n, []⟩).fsm.state ≠ f.state ∨
    (CallFSM.onTimerFired cfg timer.type ⟨f, n, []⟩).calls ≠ [] → timer.visit = f.visit
  stale : timer.id ≠ f.activeTimer → CallFSM.onTimerFired cfg timer.type ⟨f, n, []⟩ = ⟨f, n, []⟩

/-- The timer is still the active one, or the machine is closed. -/
def Current (f : CallFSM) (timer : Timer) : Prop :=
  timer.id = f.activeTimer ∨ f.state = .closed

instance (f : CallFSM) (timer : Timer) : Decidable (Current f timer) :=
  inferInstanceAs (Decidable (_ ∨ _))

/-- A step does not process a fire that is not current. -/
def FiresCurrent (s : QueuedFSM) (l : Label) : Prop :=
  l = .control → ∀ timer, s.queue.head? = some (.fire timer) → Current s.fsm timer

section

variable {cfg : CallFsmTimerConfig} {f : CallFSM} {n : FsmTimerId} {type : FsmTimerType}

/-- A fire that changes nothing finds no active timer to take for consumed. -/
theorem activeTimer_of_onTimerFired_eq
    (h : CallFSM.onTimerFired cfg type ⟨f, n, []⟩ = ⟨f, n, []⟩) : f.activeTimer = kNoTimer := by
  have hrun : CallFSM.Event.run cfg (.timerFired type) ⟨f, n, []⟩ = ⟨f, n, []⟩ := h
  cases hv : CallFSM.Event.valid f (.timerFired type) with
  | true =>
    obtain ⟨next, ht⟩ : ∃ next, CallFSM.Event.target? f (.timerFired type) = some next := by
      cases type <;> exact ⟨_, rfl⟩
    have hvis : CallFSM.Takes f next (CallFSM.Event.run cfg (.timerFired type) ⟨f, n, []⟩) :=
      (CallFSM.run_of_valid hv ht).1
    rw [hrun] at hvis
    exact absurd hvis.2 (by simp)
  | false =>
    by_cases hm : CallFSM.Meets f (.timerFired type)
    · rw [CallFSM.run_of_not_valid hm hv] at hrun
      exact (congrArg (fun x => x.fsm.activeTimer) hrun).symm
    · -- An idle machine is closed: the handler is called.
      cases type <;> simp only [CallFSM.Meets, not_true, ne_eq, not_not] at hm
      have hc : (CallFSM.onTimerFired cfg .rtpInactivity ⟨f, n, []⟩).calls =
          [.onSessionClose "rtp_inactivity"] := CallFSM.doSessionClose_of_idle hm
      rw [h] at hc
      cases hc

/-- A closed machine ignores the fires. -/
theorem onTimerFired_of_closed (hs : f.state = .closed) (ha : f.activeTimer = kNoTimer) :
    CallFSM.onTimerFired cfg type ⟨f, n, []⟩ = ⟨f, n, []⟩ := by
  obtain ⟨s, v, a, o, w, e⟩ := f
  obtain rfl : s = .closed := hs
  obtain rfl : a = kNoTimer := ha
  cases type <;> rfl

end

/-! ## Runs -/

/-- The timers of the fires of a queue. -/
def fires (queue : List ControlItem) : List Timer := queue.filterMap ControlItem.timer?

@[simp] theorem fires_append (q r : List ControlItem) : fires (q ++ r) = fires q ++ fires r :=
  List.filterMap_append

@[simp] theorem fires_trigger (t : CallFSM.Trigger) (q : List ControlItem) :
    fires (.trigger t :: q) = fires q := rfl

@[simp] theorem fires_fire (timer : Timer) (q : List ControlItem) :
    fires (.fire timer :: q) = timer :: fires q := rfl

@[simp] theorem fires_nil : fires [] = [] := rfl

/-- The timers armed, expired, and fired into the queue. -/
def pending (s : QueuedFSM) : List Timer := s.armed ++ (s.expired ++ fires s.queue)

/-- No timer is pending twice, the armed ones are the active one, and the active
    timer fits the state, wherever it is. -/
structure Queued (s : QueuedFSM) : Prop where
  wf : s.fsm.Wf
  idle : s.fsm.state = .idle → s.pending = []
  nodup : (s.pending.map Timer.id).Nodup
  fresh : ∀ t ∈ s.pending, t.id ≠ kNoTimer ∧ t.id < s.nextId
  next : s.fsm.activeTimer < s.nextId
  armed : ∀ t ∈ s.armed, t.id = s.fsm.activeTimer
  active : ∀ t ∈ s.pending, t.id = s.fsm.activeTimer →
    t.visit = s.fsm.visit ∧ s.fsm.Fits t.type

theorem queued_init : Queued {} := by
  refine ⟨CallFSM.wf_init, fun _ => rfl, List.nodup_nil, ?_, Nat.zero_lt_one, ?_, ?_⟩ <;>
    exact fun t ht => absurd ht List.not_mem_nil

variable {cfg : CallFsmTimerConfig} {s s' : QueuedFSM}

/-- A timer on its way to the control thread, or ignored by the machine. -/
theorem Queued.of_subset (h : Queued s) (hf : s'.fsm = s.fsm) (hn : s'.nextId = s.nextId)
    (hp : s'.pending ⊆ s.pending) (hnodup : (s'.pending.map Timer.id).Nodup)
    (ha : s'.armed ⊆ s.armed) : Queued s' := by
  refine ⟨hf ▸ h.wf, fun hs => ?_, hnodup, fun t ht => ?_, ?_, fun t ht => ?_, fun t ht hid => ?_⟩
  · rw [h.idle (hf ▸ hs)] at hp
    exact List.subset_nil.1 hp
  · rw [hn]
    exact h.fresh t (hp ht)
  · rw [hf, hn]
    exact h.next
  · rw [hf]
    exact h.armed t (ha ht)
  · rw [hf] at hid ⊢
    exact h.active t (hp ht) hid

theorem Queued.of_perm (h : Queued s) (hf : s'.fsm = s.fsm) (hn : s'.nextId = s.nextId)
    (hp : s'.pending.Perm s.pending) (ha : s'.armed ⊆ s.armed) : Queued s' :=
  h.of_subset hf hn hp.subset ((hp.map _).nodup_iff.2 h.nodup) ha

/-- An item replacing the active timer. -/
theorem queued_of_rearms {f : CallFSM} {x : CallFSM.Exec} {rest : List ControlItem}
    (hr : CallFSM.Rearms f s.nextId x) (hc : applyCalls s.armed f.cancels = [])
    (hn : s.nextId ≠ kNoTimer) (hnodup : ((s.expired ++ fires rest).map Timer.id).Nodup)
    (hfresh : ∀ t ∈ s.expired ++ fires rest, t.id ≠ kNoTimer ∧ t.id < s.nextId) :
    Queued (s.after rest x) := by
  have ha : TimedFSM.Armed (TimedFSM.after s.armed x) := TimedFSM.armed_of_rearms hn hc hr
  have hact : x.fsm.activeTimer = kNoTimer ∨ x.fsm.activeTimer = s.nextId := by
    cases hr with
    | arm _ _ _ h => exact .inr h
    | disarm _ h => exact .inl h
  have hle : s.nextId ≤ x.nextId := by
    cases hr with
    | arm _ _ _ _ h => exact h ▸ Nat.le_succ _
    | disarm _ _ h => exact Nat.le_of_eq h.symm
  -- The timers on their way are stale.
  have hstale : ∀ t ∈ s.expired ++ fires rest, t.id ≠ x.fsm.activeTimer := by
    intro t ht hid
    rcases hact with h | h <;> rw [h] at hid
    · exact (hfresh t ht).1 hid
    · exact absurd (hfresh t ht).2 (by simp [hid])
  have harmed : applyCalls s.armed x.calls = [] ∨
      ∃ type, x.fsm.Fits type ∧ x.fsm.activeTimer ≠ kNoTimer ∧
        applyCalls s.armed x.calls = [⟨x.fsm.activeTimer, type, x.fsm.visit⟩] := by
    by_cases h0 : x.fsm.activeTimer = kNoTimer
    · exact .inl (ha.none h0)
    · obtain ⟨type, hf, he⟩ := ha.some h0
      exact .inr ⟨type, hf, h0, he⟩
  have hidle : x.fsm.state ≠ .idle := by
    cases hr with
    | arm type _ _ _ _ hf =>
      intro hs
      have hm := hf.mem
      simp [hs, CallFsmState.timers] at hm
    | disarm _ _ _ h => simp [h]
  have hothers {t : Timer} (ht : t ∈ s.expired ++ fires rest) :
      t.id ≠ kNoTimer ∧ t.id < x.nextId :=
    (hfresh t ht).imp_right (Nat.lt_of_lt_of_le · hle)
  obtain he | ⟨type, hf, h0, he⟩ := harmed <;>
    refine ⟨ha.wf, fun hs => absurd hs hidle, ?_, ?_, ha.fresh, ?_, ?_⟩ <;>
    simp only [pending, after, he, List.nil_append, List.singleton_append, List.map_cons,
      List.nodup_cons, List.mem_cons, List.not_mem_nil, or_false]
  · exact hnodup
  · exact fun t ht => hothers ht
  · exact fun t ht => absurd ht id
  · exact fun t ht hid => absurd hid (hstale t ht)
  · refine ⟨fun hm => ?_, hnodup⟩
    obtain ⟨t, ht, hid⟩ := List.mem_map.1 hm
    exact hstale t ht hid
  · rintro t (rfl | ht)
    · exact ⟨h0, ha.fresh⟩
    · exact hothers ht
  · rintro t rfl
    rfl
  · rintro t (rfl | ht) hid
    · exact ⟨rfl, hf⟩
    · exact absurd hid (hstale t ht)

/-- The calls cancelling the active timer leave no timer armed. -/
theorem Queued.applyCalls_cancels (h : Queued s) : applyCalls s.armed s.fsm.cancels = [] := by
  unfold CallFSM.cancels
  split
  · refine List.filter_eq_nil_iff.2 fun t ht => ?_
    simp [h.armed t ht]
  · next ha =>
    refine List.eq_nil_iff_forall_not_mem.2 fun t ht => ?_
    have hid : t.id = kNoTimer := (h.armed t ht).trans (not_not.1 ha)
    exact (h.fresh t (List.mem_append_left _ ht)).1 hid

/-- Every step that processes current fires only. -/
theorem Queued.step {l : Label} (h : Queued s) (hg : FiresCurrent s l)
    (hst : (system cfg).step s l = some s') : Queued s' := by
  have hn : s.nextId ≠ kNoTimer := Nat.ne_of_gt (Nat.zero_lt_of_lt h.next)
  cases l with
  | post t =>
    obtain rfl := Option.some.inj hst
    refine h.of_perm rfl rfl ?_ fun t ht => ht
    simp [pending]
  | expire timer =>
    simp only [system, QueuedFSM.step, Option.ite_none_right_eq_some, Option.some.injEq] at hst
    obtain ⟨hmem, rfl⟩ := hst
    refine h.of_perm rfl rfl ?_ fun t ht => List.mem_of_mem_erase ht
    have hp : s.armed.Perm (timer :: s.armed.erase timer) := List.perm_cons_erase hmem
    calc s.armed.erase timer ++ (s.expired ++ [timer] ++ fires s.queue)
        = s.armed.erase timer ++ s.expired ++ timer :: fires s.queue := by simp
      _ |>.Perm (timer :: (s.armed.erase timer ++ s.expired ++ fires s.queue)) := List.perm_middle
      _ |>.Perm (s.armed ++ (s.expired ++ fires s.queue)) := by
        simpa using (hp.append_right (s.expired ++ fires s.queue)).symm
  | postFire timer =>
    simp only [system, QueuedFSM.step, Option.ite_none_right_eq_some, Option.some.injEq] at hst
    obtain ⟨hmem, rfl⟩ := hst
    refine h.of_perm rfl rfl ?_ fun t ht => ht
    have hp : s.expired.Perm (timer :: s.expired.erase timer) := List.perm_cons_erase hmem
    refine List.Perm.append_left s.armed ?_
    simp only [fires_append, fires_fire, fires_nil, ← List.append_assoc]
    refine (List.perm_append_singleton timer _).trans ?_
    simpa using (hp.append_right (fires s.queue)).symm
  | control =>
    obtain ⟨f, n, armed, expired, queue⟩ := s
    cases queue with
    | nil => cases hst
    | cons item rest =>
      obtain rfl := Option.some.inj hst
      cases item with
      | trigger t =>
        obtain hk | hr := CallFSM.run_timers cfg n h.wf t
        · have harmed : applyCalls armed (CallFSM.run cfg t ⟨f, n, []⟩).calls = armed := by
            rw [applyCalls_timerCalls, hk.calls]
            rfl
          refine h.of_perm hk.fsm hk.nextId ?_ (by simp [after, process, harmed])
          simp [pending, after, process, harmed]
        · have hnodup := h.nodup
          rw [pending, List.map_append] at hnodup
          exact queued_of_rearms hr h.applyCalls_cancels hn (List.nodup_append.1 hnodup).2.1
            fun t ht => h.fresh t (List.mem_append_right _ ht)
      | fire timer =>
        have hmem : timer ∈ pending ⟨f, n, armed, expired, .fire timer :: rest⟩ := by
          simp [pending]
        -- Without the fire, in the order of the pending timers.
        have hsub : (expired ++ fires rest).Sublist (expired ++ fires (.fire timer :: rest)) :=
          (List.sublist_cons_self _ _).append_left expired
        have hnodup := h.nodup
        rw [pending, List.map_append, List.nodup_append] at hnodup
        obtain ⟨-, hflying, hdisj⟩ := hnodup
        obtain hid | hs := hg rfl timer rfl
        · have hid : timer.id = f.activeTimer := hid
          -- The active timer is fired: it is not armed any more.
          have harmed : armed = [] := by
            refine List.eq_nil_iff_forall_not_mem.2 fun t ht => ?_
            exact hdisj t.id (List.mem_map_of_mem ht) timer.id (List.mem_map_of_mem (by simp))
              ((h.armed t ht).trans hid.symm)
          obtain ⟨-, hf⟩ := h.active timer hmem hid
          refine queued_of_rearms (CallFSM.onTimerFired_rearms cfg n h.wf hf) ?_ hn ?_ ?_
          · simp [harmed, CallFSM.cancels, applyCalls]
          · exact hflying.sublist (hsub.map _)
          · exact fun t ht => h.fresh t (List.mem_append_right _ (hsub.subset ht))
        · have ha : f.activeTimer = kNoTimer := h.wf.active.2 (.inr hs)
          have hx : process cfg (.fire timer) ⟨f, n, []⟩ = ⟨f, n, []⟩ :=
            onTimerFired_of_closed hs ha
          have hsub' := hsub.append_left armed
          rw [hx]
          exact h.of_subset rfl rfl hsub'.subset (h.nodup.sublist (hsub'.map _)) fun t ht => ht

/-- As long as the processed fires are current, the armed timers are the active
    one, and the fire at the head of the queue is harmless if and only if it is
    current itself. -/
theorem reachable_fire_iff (h : (system cfg).ReachableIf FiresCurrent s) :
    (∀ t ∈ s.armed, t.id = s.fsm.activeTimer) ∧
      ∀ timer, s.queue.head? = some (.fire timer) →
        (Harmless cfg s.fsm s.nextId timer ↔ Current s.fsm timer) := by
  have hI : Queued s := h.invariant queued_init fun _ _ _ hI hg => hI.step hg
  refine ⟨hI.armed, fun timer hq => ?_⟩
  have hmem : timer ∈ s.pending := by
    obtain ⟨rest, hq⟩ := List.head?_eq_some_iff.1 hq
    simp [pending, hq]
  constructor
  · intro hh
    by_contra hc
    obtain ⟨hid, hs⟩ := not_or.1 hc
    have ha : s.fsm.activeTimer = kNoTimer := activeTimer_of_onTimerFired_eq (hh.stale hid)
    obtain hidle | hclosed := hI.wf.active.1 ha
    · rw [hI.idle hidle] at hmem
      exact absurd hmem List.not_mem_nil
    · exact hs hclosed
  · rintro (hid | hs)
    · exact ⟨fun _ => (hI.active timer hmem hid).1, fun hne => absurd hid hne⟩
    · have hx : CallFSM.onTimerFired cfg timer.type ⟨s.fsm, s.nextId, []⟩ = ⟨s.fsm, s.nextId, []⟩ :=
        onTimerFired_of_closed hs (hI.wf.active.2 (.inr hs))
      refine ⟨fun h => ?_, fun _ => hx⟩
      rw [hx] at h
      exact absurd h (by simp)

/-- The caller has said nothing for too long, and the fire is to close the call. -/
theorem reachable_fire_iff_noSpeech :
    ∃ s, (system {}).Reachable s ∧ Harmless {} s.fsm s.nextId ⟨2, .noSpeechTimeout, 2⟩ := by
  have h₁ : (system {}).ReachableIf FiresCurrent _ :=
    .step (l := .post .sessionStart) .init (fun h => by cases h) rfl
  have h₂ : (system {}).ReachableIf FiresCurrent _ :=
    .step (l := .control) h₁ (fun _ _ h => by cases h) rfl
  have h₃ : (system {}).ReachableIf FiresCurrent _ :=
    .step (l := .post .serviceReady) h₂ (fun h => by cases h) rfl
  have h₄ : (system {}).ReachableIf FiresCurrent _ :=
    .step (l := .control) h₃ (fun _ _ h => by cases h) rfl
  have h₅ : (system {}).ReachableIf FiresCurrent _ :=
    .step (l := .expire ⟨2, .noSpeechTimeout, 2⟩) h₄ (fun h => by cases h) rfl
  have h₆ : (system {}).ReachableIf FiresCurrent _ :=
    .step (l := .postFire ⟨2, .noSpeechTimeout, 2⟩) h₅ (fun h => by cases h) rfl
  exact ⟨_, h₆.reachable, ((reachable_fire_iff h₆).2 _ rfl).2 (.inl rfl)⟩

/-- The caller speaks up while the timer of the silence is on its way: its fire
    takes the timer of the utterance for consumed. -/
theorem not_reachable_harmless :
    ¬∀ s, (system {}).Reachable s → ∀ timer, s.queue.head? = some (.fire timer) →
      Harmless {} s.fsm s.nextId timer := by
  intro h
  let s : QueuedFSM := {
    fsm := { state := .recognizing, visit := 3, activeTimer := 3 }
    nextId := 4
    armed := [⟨3, .maxUtteranceTimeout, 3⟩]
    queue := [.fire ⟨2, .noSpeechTimeout, 2⟩] }
  have hexec : (system {}).exec {} [.post .sessionStart, .control, .post .serviceReady, .control,
      .post (.speechStarted (-30)), .expire ⟨2, .noSpeechTimeout, 2⟩, .control,
      .postFire ⟨2, .noSpeechTimeout, 2⟩] = some s := by decide
  have hs : (system {}).Reachable s := System.Reachable.exec .init hexec
  exact absurd ((h s hs _ rfl).stale (by decide)) (by decide)

end QueuedFSM

end Yuviz.Gateway
