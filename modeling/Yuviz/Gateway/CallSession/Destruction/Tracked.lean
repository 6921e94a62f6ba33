import Yuviz.Gateway.CallSession.Destruction

/-!
# The timers that a session knows

The timers of the session that are in the heap are cancelled, or the control thread knows
their ids: from the map, or because it is about to put it there, or to cancel it
(`Tracked.control`). The other steps of the timer service do not change that
(`Tracked.timers`).
-/

namespace Yuviz.Gateway

open CallFSM (Event scheduledId scheduledIds)
/-! ## What a step of the timer service leaves alone -/

namespace TimerService

variable {s s' : TimerService} {l : Label} {timer : TimerService.Entry}

theorem tickets_le_step (hst : s.step l = some s') : s.tickets ≤ s'.tickets := by
  cases l with
  | tick elapsed | stop => exact (Option.some.inj hst) ▸ le_rfl
  | schedule type sessionId delay => exact (Option.some.inj hst) ▸ Nat.le_succ _
  | push i =>
    obtain ⟨_, -, rfl⟩ := Option.map_eq_some_iff.1 hst
    exact le_rfl
  | cancel id =>
    obtain rfl := Option.some.inj hst
    rw [cancel]
    split_ifs <;> exact le_rfl
  | start => rcases start_eq_some hst with rfl | ⟨-, rfl⟩ <;> exact le_rfl
  | loop i =>
    rcases timerLoop_eq_some hst with ⟨_, -, -, rfl⟩ | ⟨_, -, -, -, -, rfl⟩ | ⟨_, -, rfl⟩ <;>
      exact le_rfl

/-- A timer is in the heap since before, and is still cancelled if it was, or it has been pushed. -/
theorem mem_heap_step (h : s.Named) (hst : s.step l = some s') (ht : timer ∈ s'.heap) :
    (timer ∈ s.heap ∧ (timer.id ∈ s.cancelled → timer.id ∈ s'.cancelled)) ∨
      ∃ i, l = .push i ∧ s.scheduling[i]? = some timer := by
  cases l with
  | tick elapsed | schedule type sessionId delay | stop =>
    obtain rfl := Option.some.inj hst
    exact .inl ⟨ht, id⟩
  | push i =>
    obtain ⟨t, hi, rfl⟩ := Option.map_eq_some_iff.1 hst
    rcases List.mem_cons.1 ht with rfl | ht
    · exact .inr ⟨i, rfl, hi⟩
    · exact .inl ⟨ht, id⟩
  | cancel i =>
    obtain rfl := Option.some.inj hst
    rw [cancel] at ht ⊢
    split_ifs at ht ⊢
    · exact .inl ⟨ht, id⟩
    · exact .inl ⟨ht, Finset.mem_insert_of_mem⟩
  | start =>
    rcases start_eq_some hst with rfl | ⟨-, rfl⟩
    · exact .inl ⟨ht, id⟩
    · exact .inl ⟨ht, id⟩
  | loop i =>
    rcases timerLoop_eq_some hst with ⟨_, -, -, rfl⟩ | ⟨t, hi, -, -, -, rfl⟩ | ⟨_, -, rfl⟩
    · exact .inl ⟨ht, id⟩
    · refine .inl ⟨List.mem_of_mem_eraseIdx ht, fun hin => ?_⟩
      exact Finset.mem_erase.2 ⟨h.id_ne hi ht, hin⟩
    · exact .inl ⟨ht, id⟩

theorem mem_scheduling_step (hst : s.step l = some s') (ht : timer ∈ s'.scheduling) :
    timer ∈ s.scheduling ∨ timer.ticket = s.tickets := by
  cases l with
  | tick elapsed | stop =>
    obtain rfl := Option.some.inj hst
    exact .inl ht
  | schedule type sessionId delay =>
    obtain rfl := Option.some.inj hst
    refine (List.mem_append.1 ht).imp_right fun ht => ?_
    rw [List.mem_singleton.1 ht]
  | push i =>
    obtain ⟨_, -, rfl⟩ := Option.map_eq_some_iff.1 hst
    exact .inl (List.mem_of_mem_eraseIdx ht)
  | cancel id =>
    obtain rfl := Option.some.inj hst
    rw [cancel] at ht
    split_ifs at ht
    · exact .inl ht
    · exact .inl ht
  | start =>
    rcases start_eq_some hst with rfl | ⟨-, rfl⟩
    · exact .inl ht
    · exact .inl ht
  | loop i =>
    rcases timerLoop_eq_some hst with ⟨_, -, -, rfl⟩ | ⟨_, -, -, -, -, rfl⟩ | ⟨_, -, rfl⟩ <;>
      exact .inl ht

/-- The loop holds the timer since before, or has popped it, and it was not cancelled. -/
theorem worker_step (hst : s.step l = some s') (ht : s'.worker.timer = some timer) :
    s.worker.timer = some timer ∨ timer ∈ s.heap ∧ timer.id ∉ s.cancelled := by
  cases l with
  | tick elapsed | schedule type sessionId delay | stop =>
    obtain rfl := Option.some.inj hst
    exact .inl ht
  | push i =>
    obtain ⟨_, -, rfl⟩ := Option.map_eq_some_iff.1 hst
    exact .inl ht
  | cancel id =>
    obtain rfl := Option.some.inj hst
    rw [cancel] at ht
    split_ifs at ht
    · exact .inl ht
    · exact .inl ht
  | start =>
    rcases start_eq_some hst with rfl | ⟨-, rfl⟩
    · exact .inl ht
    · cases ht
  | loop i =>
    rcases timerLoop_eq_some hst with ⟨w, hw, -, rfl⟩ | ⟨t, hi, -, -, -, rfl⟩ | ⟨_, -, rfl⟩
    · cases hw.symm.trans ht
    · dsimp only at ht
      split_ifs at ht with hin
      · cases ht
      · obtain rfl := Option.some.inj ht
        exact .inr ⟨List.mem_of_getElem? hi, hin⟩
    · cases ht

end TimerService

namespace SessionTimers

variable {cfg : CallFsmTimerConfig} {s s' : SessionTimers} {l : Label}

/-! ## What a step can do -/

/-- A step of the control thread. -/
inductive Controls (cfg : CallFsmTimerConfig) (s : SessionTimers) : SessionTimers → Prop
  | stop : s.control = .waiting → s.controlQueue = [] → s.destructor ≠ .pending →
      Controls cfg s { s with control := .stopped }
  | take (events : List Event) (rest : List Item) :
      s.control = .waiting → s.controlQueue = .run events :: rest →
      Controls cfg s { s with controlQueue := rest, control := .working { events := events } }
  | takeFinal (rest : List Item) : s.control = .waiting → s.controlQueue = .final :: rest →
      Controls cfg s { s with controlQueue := rest, control := .working s.finalWork }
  | schedule (id : FsmTimerId) (type : FsmTimerType) (delay : ℤ) (visit : ℕ) (w : Work) :
      s.control = .working { w with calls := .scheduleTimer id type delay visit :: w.calls } →
      Controls cfg s (s.scheduleTimer type delay w)
  | cancel (fid : FsmTimerId) (w : Work) :
      s.control = .working { w with calls := .cancelTimer fid :: w.calls } →
      Controls cfg s { s.cancelTimer fid with control := .working w }
  | call (c : HandlerCall) (w : Work) : c.isTimer = false →
      s.control = .working { w with calls := c :: w.calls } →
      Controls cfg s { s with control := .working w }
  | trigger (e : Event) (events : List Event) (sweeps : Bool) :
      s.control = .working ⟨[], e :: events, sweeps⟩ →
      Controls cfg s
        { s with
          fsm := (e.run cfg ⟨s.fsm, s.nextFsmTimerId, []⟩).fsm
          control := .working ⟨(e.run cfg ⟨s.fsm, s.nextFsmTimerId, []⟩).calls, events, sweeps⟩ }
  | sweep : s.control = .working ⟨[], [], true⟩ →
      Controls cfg s { s with control := .sweeping (s.timerMap.map Prod.snd) }
  | finish : s.control = .working ⟨[], [], false⟩ → Controls cfg s { s with control := .waiting }
  | push (fid : FsmTimerId) (timer : TimerService.Entry) (w : Work) (timers : TimerService) :
      s.control = .pushing fid timer w →
      s.timers.push (s.timers.scheduling.idxOf timer) = some timers →
      Controls cfg s { s with timers := timers, control := .storing fid timer.id w }
  | store (fid : FsmTimerId) (id : BitVec 64) (w : Work) : s.control = .storing fid id w →
      Controls cfg s
        { s with
          timerMap := (fid, id) :: s.timerMap.filter (·.1 ≠ fid)
          control := .working w }
  | clear : s.control = .sweeping [] →
      Controls cfg s { s with timerMap := [], control := .waiting }
  | cancelNext (i : ℕ) (id : BitVec 64) (ids : List (BitVec 64)) :
      s.control = .sweeping ids → ids[i]? = some id →
      Controls cfg s
        { s with
          timers := s.timers.cancel id
          control := .sweeping (ids.eraseIdx i) }

theorem controls_of_handle {c : HandlerCall} {w : Work}
    (hcontrol : s.control = .working { w with calls := c :: w.calls }) :
    Controls cfg s (s.handle c w) := by
  cases c with
  | scheduleTimer id type delay visit => exact .schedule id type delay visit w hcontrol
  | cancelTimer fid => exact .cancel fid w hcontrol
  | _ => exact .call _ w rfl hcontrol

theorem controls_of_controlLoop {i : ℕ} (h : s.controlLoop cfg i = some s') :
    Controls cfg s s' := by
  rw [controlLoop] at h
  split at h
  · rename_i hcontrol
    split at h
    · rename_i hqueue
      split_ifs at h with hpending
      exact Option.some.inj h ▸ .stop hcontrol hqueue hpending
    · rename_i events rest hqueue
      exact Option.some.inj h ▸ .take events rest hcontrol hqueue
    · rename_i rest hqueue
      exact Option.some.inj h ▸ .takeFinal rest hcontrol hqueue
  · rename_i c calls events sweeps hcontrol
    exact Option.some.inj h ▸ controls_of_handle hcontrol
  · rename_i e events sweeps hcontrol
    exact Option.some.inj h ▸ .trigger e events sweeps hcontrol
  · rename_i hcontrol
    exact Option.some.inj h ▸ .sweep hcontrol
  · rename_i hcontrol
    exact Option.some.inj h ▸ .finish hcontrol
  · rename_i fid timer w hcontrol
    obtain ⟨timers, hpush, rfl⟩ := Option.map_eq_some_iff.1 h
    exact .push fid timer w timers hcontrol hpush
  · rename_i fid id w hcontrol
    exact Option.some.inj h ▸ .store fid id w hcontrol
  · rename_i hcontrol
    exact Option.some.inj h ▸ .clear hcontrol
  · rename_i ids _ hcontrol
    obtain ⟨id, hi, rfl⟩ := Option.map_eq_some_iff.1 h
    exact .cancelNext i id _ hcontrol hi
  · cases h

/-- A step of the service does not push a timer of the session, and may run the callback of one. -/
theorem service_eq_some {l : TimerService.Label} (h : s.service l = some s') :
    (∀ timer ∈ s.pushed l, ¬ s.Owns timer) ∧ ∃ timers, s.timers.step l = some timers ∧
      (s' = { s with timers := timers } ∨
        ∃ type, s.called l = some type ∧ s' =
          { s.post (.run [.timerFired type]) with
            timers := timers
            misused := s.misused || s.destructor = .returned }) := by
  rw [service] at h
  split_ifs at h with hpushed
  obtain ⟨timers, hst, rfl⟩ := Option.map_eq_some_iff.1 h
  refine ⟨fun timer ht hown => hpushed ⟨timer, ht, hown⟩, timers, hst, ?_⟩
  split
  · rename_i type hcalled
    exact .inr ⟨type, hcalled, rfl⟩
  · exact .inl rfl

/-! ## The ids that the machine has -/

/-- The timers that a trigger is yet to schedule have the ids of the counter, in turn. -/
def Counted (s : SessionTimers) : Prop :=
  scheduledIds s.control.work.calls =
    List.range' s.nextFsmTimerId (scheduledIds s.control.work.calls).length

theorem Counted.control (h : s.Counted) (hst : Controls cfg s s') : s'.Counted := by
  cases hst with
  | stop | take | takeFinal | sweep | finish | clear | cancelNext => rfl
  | schedule id type delay visit w hcontrol =>
    rw [Counted, hcontrol] at h
    exact (List.cons.inj h).2
  | cancel fid w hcontrol =>
    rw [Counted, hcontrol] at h
    rw [cancelTimer]
    split
    · exact h
    · exact h
  | call c w hc hcontrol =>
    have hnone : scheduledId c = none := by
      cases c with
      | scheduleTimer => cases hc
      | _ => rfl
    rw [Counted, hcontrol] at h
    simpa only [Counted, Control.work, scheduledIds, List.filterMap_cons_none hnone] using h
  | trigger e =>
    have hids : scheduledIds (e.run cfg ⟨s.fsm, s.nextFsmTimerId, []⟩).calls = List.range' _ _ :=
      (CallFSM.consecutive_run e).ids
    rw [Counted, Control.work, hids, List.length_range']
  | push fid timer w timers hcontrol =>
    rw [Counted, hcontrol] at h
    exact h
  | store fid id w hcontrol =>
    rw [Counted, hcontrol] at h
    exact h

theorem Counted.step (h : s.Counted) (hst : s.step cfg l = some s') : s'.Counted := by
  cases l with
  | service l =>
    obtain ⟨-, timers, -, rfl | ⟨type, -, rfl⟩⟩ := service_eq_some hst
    · exact h
    · exact h
  | control i => exact h.control (controls_of_controlLoop hst)
  | post | start | destroy | finish =>
    rw [SessionTimers.step] at hst
    split_ifs at hst
    exact Option.some.inj hst ▸ h

/-! ## The timers that are known -/

/-- The ids that the control thread knows, given those in the map. -/
def Control.ids (mapped : List (BitVec 64)) : Control → List (BitVec 64)
  | storing _ id _ => id :: mapped
  | sweeping ids => ids
  | _ => mapped

def ids (s : SessionTimers) : List (BitVec 64) := s.control.ids (s.timerMap.map Prod.snd)

/-- The keys of the map, and the one that is about to be put there. -/
def keys (s : SessionTimers) : List FsmTimerId :=
  s.control.key.toList ++ s.timerMap.map Prod.fst

/-- The control thread knows the timers of the session that are not cancelled. -/
structure Tracked (s : SessionTimers) : Prop where
  wf : s.timers.Wf
  named : s.timers.Named
  tickets : ∀ c ∈ s.callbacks, c.1 < s.timers.tickets
  nodup : s.keys.Nodup
  fresh : ∀ fid ∈ s.keys, fid < s.nextFsmTimerId
  heap : ∀ timer ∈ s.timers.heap, s.Owns timer →
    timer.id ∈ s.timers.cancelled ∨ timer.id ∈ s.ids
  scheduling : ∀ timer ∈ s.timers.scheduling, s.Owns timer → s.control.timer = some timer

theorem ids_of_working {w : Work} (h : s.control = .working w) :
    s.ids = s.timerMap.map Prod.snd := by
  rw [ids, h]
  rfl

theorem keys_of_working {w : Work} (h : s.control = .working w) :
    s.keys = s.timerMap.map Prod.fst := by
  rw [keys, h]
  rfl

namespace Tracked

variable (h : s.Tracked)
include h

/-- A timer of the session has a ticket that has been given out. -/
theorem not_owns {timer : TimerService.Entry} (ht : timer.ticket = s.timers.tickets) :
    ¬ s.Owns timer := by
  intro hown
  obtain ⟨c, hc, heq⟩ := List.mem_map.1 hown
  exact (h.tickets c hc).ne (heq.trans ht)

/-- A step of the timer service that pushes no timer of the session. -/
theorem timers {l : TimerService.Label} {timers : TimerService}
    (hl : ∀ type sessionId delay, l = .schedule type sessionId delay → s.timers.FreshId)
    (hpushed : ∀ timer ∈ s.pushed l, ¬ s.Owns timer) (hst : s.timers.step l = some timers) :
    Tracked { s with timers := timers } where
  wf := h.wf.step hst
  named := h.named.step hl hst
  tickets c hc := (h.tickets c hc).trans_le (TimerService.tickets_le_step hst)
  nodup := h.nodup
  fresh := h.fresh
  heap timer ht hown := by
    rcases TimerService.mem_heap_step h.named hst ht with ⟨ht, hcancelled⟩ | ⟨i, rfl, hi⟩
    · exact (h.heap timer ht hown).imp_left hcancelled
    · exact absurd hown (hpushed timer hi)
  scheduling timer ht hown := by
    rcases TimerService.mem_scheduling_step hst ht with ht | ht
    · exact h.scheduling timer ht hown
    · exact absurd hown (h.not_owns ht)

/-- The control thread goes on, and has cancelled the timers that it does not know any more. -/
theorem goOn {c : Control} {m : List (FsmTimerId × BitVec 64)}
    (hkeys : (c.key.toList ++ m.map Prod.fst).Sublist s.keys)
    (hids : ∀ timer ∈ s.timers.heap, timer.id ∈ s.ids →
      timer.id ∈ s.timers.cancelled ∨ timer.id ∈ c.ids (m.map Prod.snd))
    (htimer : c.timer = s.control.timer) :
    Tracked { s with timerMap := m, control := c } where
  wf := h.wf
  named := h.named
  tickets := h.tickets
  nodup := h.nodup.sublist hkeys
  fresh fid hfid := h.fresh fid (hkeys.subset hfid)
  heap timer ht hown := (h.heap timer ht hown).elim .inl (hids timer ht)
  scheduling := by
    rw [htimer]
    exact h.scheduling

/-- The control thread goes on, and holds what it held. -/
theorem keep {c : Control} (hkey : c.key = s.control.key)
    (hids : c.ids (s.timerMap.map Prod.snd) = s.ids) (htimer : c.timer = s.control.timer) :
    Tracked { s with control := c } :=
  h.goOn (by rw [hkey]; exact .refl _) (fun _ _ hmem => .inr (hids ▸ hmem)) htimer

theorem scheduleTimer {w : Work} {calls : List HandlerCall} {type : FsmTimerType} {delay : ℤ}
    (hcontrol : s.control = .working { w with calls := calls }) (hfresh : s.timers.FreshId) :
    (s.scheduleTimer type delay w).Tracked := by
  have hst : s.timers.step (.schedule (toTimerType type) s.sessionId delay) =
      some (s.timers.schedule (toTimerType type) s.sessionId delay) := rfl
  have hkeys : (s.scheduleTimer type delay w).keys = s.nextFsmTimerId :: s.keys := by
    rw [keys_of_working hcontrol]
    rfl
  -- Only the new timer has become one of the session.
  have hown {timer : TimerService.Entry} (hne : timer.ticket ≠ s.timers.tickets)
      (ht : (s.scheduleTimer type delay w).Owns timer) : s.Owns timer := by
    rw [Owns, SessionTimers.scheduleTimer, List.map_append, List.mem_append] at ht
    exact ht.resolve_right fun heq => hne (List.mem_singleton.1 heq)
  refine
    { wf := h.wf.step hst
      named := h.named.schedule hfresh
      tickets := fun c hc => ?_
      nodup := ?_
      fresh := fun fid hfid => ?_
      heap := fun timer ht hnew => ?_
      scheduling := fun timer ht hnew => ?_ }
  · rcases List.mem_append.1 hc with hc | hc
    · exact Nat.lt_succ_of_lt (h.tickets c hc)
    · exact List.mem_singleton.1 hc ▸ Nat.lt_succ_self _
  · rw [hkeys]
    exact List.nodup_cons.2 ⟨fun hmem => (h.fresh _ hmem).false, h.nodup⟩
  · rw [hkeys] at hfid
    rcases List.mem_cons.1 hfid with rfl | hfid
    · exact Nat.lt_succ_self _
    · exact Nat.lt_succ_of_lt (h.fresh fid hfid)
  · have hlt : timer.ticket < s.timers.tickets := (h.wf.not_mem_of_heap ht).1
    have hknown := h.heap timer ht (hown hlt.ne hnew)
    rwa [ids_of_working hcontrol] at hknown
  · rcases List.mem_append.1 ht with ht | ht
    · have hticket : timer.ticket < s.timers.tickets := h.wf.ticket_lt_of_scheduling ht
      have htimer := h.scheduling timer ht (hown hticket.ne hnew)
      rw [hcontrol] at htimer
      cases htimer
    · exact (congrArg some (List.mem_singleton.1 ht)).symm

theorem cancel {id : BitVec 64} : Tracked { s with timers := s.timers.cancel id } :=
  h.timers (l := .cancel id) nofun nofun rfl

/-- A timer in the heap whose id is cancelled. -/
theorem mem_cancelled {timer : TimerService.Entry} (ht : timer ∈ s.timers.heap) :
    timer.id ∈ (s.timers.cancel timer.id).cancelled := by
  have hzero : timer.id ≠ 0 := h.named.nonzero timer (List.mem_append_left _ ht)
  rw [TimerService.cancel, if_neg hzero]
  exact Finset.mem_insert_self _ _

theorem cancelTimer {w : Work} {calls : List HandlerCall} {fid : FsmTimerId}
    (hcontrol : s.control = .working { w with calls := calls }) :
    Tracked { s.cancelTimer fid with control := .working w } := by
  have hkeys := keys_of_working hcontrol
  have hids := ids_of_working hcontrol
  rw [SessionTimers.cancelTimer]
  split
  · rename_i id hid
    refine h.cancel.goOn ?_ (fun timer ht (hmem : timer.id ∈ s.ids) => ?_) (by rw [hcontrol]; rfl)
    · exact hkeys ▸ List.filter_sublist.map Prod.fst
    · have hheap : timer ∈ s.timers.heap := by
        rwa [TimerService.heap_cancel] at ht
      rw [hids] at hmem
      obtain ⟨⟨fid', id'⟩, hmem, heq⟩ := List.mem_map.1 hmem
      by_cases hfid : fid' = fid
      · -- The key is there once.
        obtain ⟨l₁, l₂, heq', -⟩ := List.lookup_eq_some_iff.1 hid
        have hin : (fid, id) ∈ s.timerMap := heq' ▸ List.mem_append_right _ List.mem_cons_self
        have hsame := List.inj_on_of_nodup_map (hkeys ▸ h.nodup) hmem hin hfid
        obtain rfl : timer.id = id := heq.symm.trans (congrArg Prod.snd hsame)
        exact .inl (h.mem_cancelled hheap)
      · exact .inr (heq ▸ List.mem_map_of_mem (List.mem_filter.2 ⟨hmem, by simpa using hfid⟩))
  · exact h.keep (by rw [hcontrol]; rfl) hids.symm (by rw [hcontrol]; rfl)

/-- The push of a timer, whose id is then known. -/
theorem push {fid : FsmTimerId} {timer : TimerService.Entry} {w : Work} {timers : TimerService}
    (hcontrol : s.control = .pushing fid timer w)
    (hpush : s.timers.push (s.timers.scheduling.idxOf timer) = some timers) :
    Tracked { s with timers := timers, control := .storing fid timer.id w } := by
  have hst : s.timers.step (.push (s.timers.scheduling.idxOf timer)) = some timers := hpush
  obtain ⟨t, hi, rfl⟩ := Option.map_eq_some_iff.1 hpush
  obtain rfl : t = timer := by
    obtain ⟨hlt, rfl⟩ := List.getElem?_eq_some_iff.1 hi
    exact List.getElem_idxOf hlt
  have hids : s.ids = s.timerMap.map Prod.snd := by
    rw [ids, hcontrol]
    rfl
  have hkeys : s.keys = fid :: s.timerMap.map Prod.fst := by
    rw [keys, hcontrol]
    rfl
  refine
    { wf := h.wf.step hst
      named := h.named.step (l := .push _) nofun hst
      tickets := h.tickets
      nodup := (hkeys ▸ h.nodup : (fid :: s.timerMap.map Prod.fst).Nodup)
      fresh := fun _ (hfid : _ ∈ fid :: s.timerMap.map Prod.fst) => h.fresh _ (hkeys ▸ hfid)
      heap := fun t' ht hown => ?_
      scheduling := fun t' ht hown => ?_ }
  · rcases List.mem_cons.1 ht with rfl | ht
    · exact .inr List.mem_cons_self
    · exact (h.heap t' ht hown).imp_right fun hmem => List.mem_cons_of_mem _ (hids ▸ hmem)
  · -- It is not there twice.
    have htimer := h.scheduling t' (List.mem_of_mem_eraseIdx ht) hown
    rw [hcontrol] at htimer
    obtain rfl := Option.some.inj htimer
    exact absurd ht ((h.wf.step hst).not_mem_of_heap List.mem_cons_self).2.1

theorem store {fid : FsmTimerId} {id : BitVec 64} {w : Work}
    (hcontrol : s.control = .storing fid id w) :
    Tracked
      { s with
        timerMap := (fid, id) :: s.timerMap.filter (·.1 ≠ fid)
        control := .working w } := by
  have hkeys : s.keys = fid :: s.timerMap.map Prod.fst := by
    rw [keys, hcontrol]
    rfl
  have hids : s.ids = id :: s.timerMap.map Prod.snd := by
    rw [ids, hcontrol]
    rfl
  -- The key is a new one.
  have hnew : s.timerMap.filter (·.1 ≠ fid) = s.timerMap := by
    refine List.filter_eq_self.2 fun p hp => ?_
    have hnotin : fid ∉ s.timerMap.map Prod.fst := (List.nodup_cons.1 (hkeys ▸ h.nodup)).1
    simpa using fun heq : p.1 = fid => hnotin (heq ▸ List.mem_map_of_mem hp)
  rw [hnew]
  refine h.goOn ?_ (fun timer _ hmem => .inr ?_) (by rw [hcontrol]; rfl)
  · exact hkeys ▸ .refl _
  · rwa [hids] at hmem

theorem control (hfresh : s.schedules (.control 0) = true → s.timers.FreshId)
    (hst : Controls cfg s s') : s'.Tracked := by
  cases hst with
  | stop hcontrol | call _ _ _ hcontrol | finish hcontrol | sweep hcontrol =>
    exact h.keep (by rw [hcontrol]; rfl) (by rw [ids, hcontrol]; rfl) (by rw [hcontrol]; rfl)
  | take _ _ hcontrol | takeFinal _ hcontrol | trigger _ _ _ hcontrol =>
    exact
      { h.keep (by rw [hcontrol]; rfl) (by rw [ids, hcontrol]; rfl) (by rw [hcontrol]; rfl) with }
  | schedule id type delay visit w hcontrol =>
    refine h.scheduleTimer hcontrol (hfresh ?_)
    rw [schedules, hcontrol]
  | cancel fid w hcontrol => exact h.cancelTimer hcontrol
  | push fid timer w timers hcontrol hpush => exact h.push hcontrol hpush
  | store fid id w hcontrol => exact h.store hcontrol
  | clear hcontrol =>
    refine h.goOn (m := []) (List.nil_sublist _) (fun timer _ hmem => ?_) (by rw [hcontrol]; rfl)
    rw [ids, hcontrol] at hmem
    cases hmem
  | cancelNext i id ids hcontrol hi =>
    have hids : s.ids = ids := by
      rw [SessionTimers.ids, hcontrol]
      rfl
    refine h.cancel.goOn ?_ (fun timer ht (hmem : timer.id ∈ s.ids) => ?_) (by rw [hcontrol]; rfl)
    · rw [keys, hcontrol]
      exact .refl _
    · obtain ⟨hlt, rfl⟩ := List.getElem?_eq_some_iff.1 hi
      rw [hids] at hmem
      rcases List.mem_cons.1 ((List.getElem_cons_eraseIdx_perm hlt).mem_iff.2 hmem) with heq | hmem
      · rw [TimerService.heap_cancel] at ht
        exact .inl (heq ▸ h.mem_cancelled ht)
      · exact .inr hmem

end Tracked

end SessionTimers

end Yuviz.Gateway
