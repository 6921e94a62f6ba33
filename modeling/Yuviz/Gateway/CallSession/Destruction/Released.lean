import Mathlib
import Yuviz.Gateway.CallSession.Destruction.Tracked

/-!
# A session that is destroyed has no timer

Once the item of the destructor has run, the machine is closing or closed, and the
control thread knows no timer any more (`Staged`). So the timers of the session that are
left when the destructor returns are cancelled, and the loop does not run their
callbacks; but it may hold one that it has popped before.
-/

namespace Yuviz.Gateway.SessionTimers

open CallFSM (Event Ended scheduledIds)
variable {cfg : CallFsmTimerConfig} {s s' : SessionTimers} {l : Label}

/-! ## The item of the destructor -/

/-- The machine is started before the item of the destructor is run. -/
def starts : List Item → Prop
  | .run events :: rest => .trigger .sessionStart ∈ events ∨ starts rest
  | .final :: _ => False
  | [] => False

theorem starts_append {items : List Item} (item : Item) (h : starts items) :
    starts (items ++ [item]) := by
  induction items with
  | nil => exact h.elim
  | cons i rest ih =>
    cases i with
    | run events => exact h.imp_right ih
    | final => exact h.elim

theorem starts_append_run {items : List Item} (h : .final ∉ items) :
    starts (items ++ [.run [.trigger .sessionStart]]) := by
  induction items with
  | nil => exact .inl List.mem_cons_self
  | cons i rest ih =>
    cases i with
    | run events => exact .inr (ih fun hmem => h (List.mem_cons_of_mem _ hmem))
    | final => exact absurd List.mem_cons_self h

/-- The machine has been started, or will be before it is closed. -/
def Begun (s : SessionTimers) : Prop :=
  s.fsm.state ≠ .idle ∨ .trigger .sessionStart ∈ s.control.work.events ∨ starts s.controlQueue

/-- How many items of the destructor are to be run. -/
def finals (s : SessionTimers) : ℕ :=
  s.controlQueue.count .final + s.control.work.sweeps.toNat

/-- Nothing is known of timers, nor will be. -/
structure Cleared (s : SessionTimers) : Prop where
  ended : Ended s.fsm
  calls : scheduledIds s.control.work.calls = []
  ids : s.ids = []
  key : s.control.key = none

structure Staged (s : SessionTimers) : Prop where
  begun : s.started = true → s.Begun
  started : s.destructor ≠ .pending → s.started = true
  pending : s.destructor = .pending → s.finals = 0
  once : s.finals ≤ 1
  closing : s.control.work.sweeps = true → Ended s.fsm ∨
    s.fsm.state ≠ .idle ∧ ∃ reason, .trigger (.sessionClose reason) ∈ s.control.work.events
  cleared : s.destructor ≠ .pending → s.finals = 0 → s.Cleared
  stopped : s.control = .stopped → s.destructor ≠ .pending ∧ s.finals = 0

/-- No key is put into the map when a timer is cancelled. -/
theorem cancelTimer_eq (fid : FsmTimerId) : ∃ timers m, m.Sublist s.timerMap ∧
    s.cancelTimer fid = { s with timers := timers, timerMap := m } := by
  rw [cancelTimer]
  split
  · exact ⟨_, _, List.filter_sublist, rfl⟩
  · exact ⟨_, _, .refl _, rfl⟩

theorem scheduledIds_of_cons {c : HandlerCall} {cs : List HandlerCall}
    (h : scheduledIds (c :: cs) = []) : scheduledIds cs = [] := by
  rw [scheduledIds, List.filterMap_eq_nil_iff] at h ⊢
  exact fun d hd => h d (List.mem_cons_of_mem _ hd)

/-- The control thread goes on with an item. -/
theorem Cleared.working (h : s.Cleared) {w : Work} {c : HandlerCall}
    (hcontrol : s.control = .working { w with calls := c :: w.calls }) :
    Cleared { s with control := .working w } := by
  have hcalls := h.calls
  rw [hcontrol] at hcalls
  exact ⟨h.ended, scheduledIds_of_cons hcalls, (ids_of_working hcontrol).symm.trans h.ids, rfl⟩

/-- A callback, or a trigger, is posted. -/
theorem finals_post_run (events : List Event) : (s.post (.run events)).finals = s.finals := by
  simp [finals, post]

theorem begun_post (item : Item) (h : s.Begun) : (s.post item).Begun :=
  h.imp_right fun h => h.imp_right (starts_append item)

namespace Staged

variable (h : s.Staged)
include h

/-- The machine is as it was, and so is what is to be run. -/
theorem of_same (hfsm : s'.fsm = s.fsm) (hqueue : s'.controlQueue = s.controlQueue)
    (hstarted : s'.started = s.started) (hdestructor : s'.destructor = s.destructor)
    (hevents : s'.control.work.events = s.control.work.events)
    (hsweeps : s'.control.work.sweeps = s.control.work.sweeps)
    (hstopped : s'.control = .stopped → s.control = .stopped)
    (hcleared : s.Cleared → s'.Cleared) : s'.Staged := by
  have hfinals : s'.finals = s.finals := by rw [finals, finals, hqueue, hsweeps]
  refine
    { begun := fun hs => ?_
      started := fun hd => hstarted ▸ h.started (hdestructor ▸ hd)
      pending := fun hp => hfinals ▸ h.pending (hdestructor ▸ hp)
      once := hfinals ▸ h.once
      closing := fun hs => ?_
      cleared := fun hd hf => hcleared (h.cleared (hdestructor ▸ hd) (hfinals ▸ hf))
      stopped := fun hc => ?_ }
  · rw [Begun, hfsm, hqueue, hevents]
    exact h.begun (hstarted ▸ hs)
  · rw [hfsm, hevents]
    exact h.closing (hsweeps ▸ hs)
  · rw [hdestructor, hfinals]
    exact h.stopped (hstopped hc)

theorem post (events : List Event) : (s.post (.run events)).Staged where
  begun hs := begun_post _ (h.begun hs)
  started := h.started
  pending hp := (finals_post_run events).trans (h.pending hp)
  once := (finals_post_run events).trans_le h.once
  closing := h.closing
  cleared hd hf := { h.cleared hd ((finals_post_run events).symm.trans hf) with }
  stopped hc := (h.stopped hc).imp_right (finals_post_run events).trans

theorem service {l : TimerService.Label} (hst : s.service l = some s') : s'.Staged := by
  obtain ⟨-, timers, -, rfl | ⟨type, -, rfl⟩⟩ := service_eq_some hst
  · exact { h with cleared := fun hd hf => { h.cleared hd hf with } }
  · have hpost := h.post [.timerFired type]
    exact { hpost with cleared := fun hd hf => { hpost.cleared hd hf with } }

theorem start (hstarted : s.started = false) :
    Staged { s.post (.run [.trigger .sessionStart]) with started := true } := by
  have hpost := h.post [.trigger .sessionStart]
  have hpending : s.destructor = .pending := by
    by_contra hd
    cases (h.started hd).symm.trans hstarted
  have hnone : .final ∉ s.controlQueue := by
    have hzero := h.pending hpending
    rw [finals] at hzero
    exact List.count_eq_zero.1 (by omega)
  exact
    { hpost with
      begun := fun _ => .inr (.inr (starts_append_run hnone))
      started := fun _ => rfl
      cleared := fun hd => absurd hpending hd }

theorem destroy (hstarted : s.started = true) (hpending : s.destructor = .pending) :
    Staged { s.post .final with destructor := .joining } := by
  have hfinals : finals { s.post .final with destructor := .joining } = 1 := by
    have hzero := h.pending hpending
    simp only [finals, SessionTimers.post, List.count_append, List.count_singleton_self] at hzero ⊢
    omega
  refine
    { begun := fun _ => begun_post _ (h.begun hstarted)
      started := fun _ => hstarted
      pending := nofun
      once := hfinals.le
      closing := h.closing
      cleared := fun _ hf => ?_
      stopped := fun hc => absurd hpending (h.stopped hc).1 }
  cases hfinals.symm.trans hf

/-- The machine has been started when the item of the destructor is run. -/
theorem ne_idle {rest : List Item} (hcontrol : s.control = .waiting)
    (hqueue : s.controlQueue = .final :: rest) : s.fsm.state ≠ .idle := by
  have hpos : s.finals ≠ 0 := by
    rw [finals, hqueue, List.count_cons_self]
    omega
  have hbegun := h.begun (h.started fun hp => hpos (h.pending hp))
  rw [Begun, hcontrol, hqueue] at hbegun
  rcases hbegun with hne | hmem | hmem
  · exact hne
  · cases hmem
  · exact hmem.elim

/-- The control thread takes the item of the destructor. -/
theorem takeFinal {rest : List Item} (hcontrol : s.control = .waiting)
    (hqueue : s.controlQueue = .final :: rest) :
    Staged { s with controlQueue := rest, control := .working s.finalWork } := by
  have hne := h.ne_idle hcontrol hqueue
  have hfinals : finals { s with controlQueue := rest, control := .working s.finalWork } =
      s.finals := by
    rw [finals, finals, hqueue, hcontrol, List.count_cons_self]
    rfl
  have hpos : s.finals ≠ 0 := by
    rw [finals, hqueue, List.count_cons_self]
    omega
  refine
    { begun := fun _ => .inl hne
      started := h.started
      pending := fun hp => absurd (h.pending hp) hpos
      once := hfinals.trans_le h.once
      closing := fun _ => ?_
      cleared := fun _ hf => absurd (hfinals.symm.trans hf) hpos
      stopped := nofun }
  by_cases hterminal : s.fsm.isTerminal = true
  · exact .inl (.inr (of_decide_eq_true hterminal))
  · refine .inr ⟨hne, "session_destroyed", ?_⟩
    simp [Control.work, finalWork, hterminal]

/-- The next trigger of an item. -/
theorem trigger {e : Event} {events : List Event} {sweeps : Bool}
    (hcontrol : s.control = .working ⟨[], e :: events, sweeps⟩) :
    Staged
      { s with
        fsm := (e.run cfg ⟨s.fsm, s.nextFsmTimerId, []⟩).fsm
        control :=
          .working ⟨(e.run cfg ⟨s.fsm, s.nextFsmTimerId, []⟩).calls, events, sweeps⟩ } := by
  have hbegun := h.begun
  have hclosing := h.closing
  have hstopped := h.stopped
  rw [Begun, hcontrol] at hbegun
  rw [hcontrol] at hclosing hstopped
  have hfinals : finals
      { s with
        fsm := (e.run cfg ⟨s.fsm, s.nextFsmTimerId, []⟩).fsm
        control := .working ⟨(e.run cfg ⟨s.fsm, s.nextFsmTimerId, []⟩).calls, events, sweeps⟩ } =
      s.finals := by
    rw [finals, finals, hcontrol]
    rfl
  refine
    { begun := fun hs => ?_
      started := h.started
      pending := fun hp => hfinals.trans (h.pending hp)
      once := hfinals.trans_le h.once
      closing := fun hs => ?_
      cleared := fun hd hf => ?_
      stopped := nofun }
  · by_cases hidle : s.fsm.state = .idle
    · rcases (hbegun hs).resolve_left (not_not.2 hidle) with hmem | hmem
      · rcases List.mem_cons.1 hmem with rfl | hmem
        · exact .inl (CallFSM.state_run_sessionStart hidle)
        · exact .inr (.inl hmem)
      · exact .inr (.inr hmem)
    · exact .inl (CallFSM.state_ne_idle_run e hidle)
  · rcases hclosing hs with hended | ⟨hne, reason, hmem⟩
    · exact .inl (hended.run e).2
    · rcases List.mem_cons.1 hmem with rfl | hmem
      · exact .inl (CallFSM.ended_run_sessionClose hne)
      · exact .inr ⟨CallFSM.state_ne_idle_run e hne, reason, hmem⟩
  · have hc := h.cleared hd (hfinals.symm.trans hf)
    refine ⟨(hc.ended.run e).2, (hc.ended.run e).1, ?_, rfl⟩
    exact (ids_of_working hcontrol).symm.trans hc.ids

/-- The map is emptied at the end of the item of the destructor. -/
theorem clear (hcontrol : s.control = .sweeping []) :
    Staged { s with timerMap := [], control := .waiting } := by
  have hended : Ended s.fsm := by
    have hclosing := h.closing
    rw [hcontrol] at hclosing
    exact (hclosing rfl).resolve_right fun hreason => List.not_mem_nil hreason.2.choose_spec
  have hfinals : finals { s with timerMap := [], control := .waiting } = 0 := by
    have honce := h.once
    rw [finals, hcontrol, Control.work, Bool.toNat_true] at honce
    simp only [finals, Control.work, Bool.toNat_false]
    omega
  have hbegun := h.begun
  rw [Begun, hcontrol] at hbegun
  exact
    { begun := hbegun
      started := h.started
      pending := fun _ => hfinals
      once := hfinals.trans_le (Nat.zero_le 1)
      closing := (by rintro ⟨⟩)
      cleared := fun _ _ => ⟨hended, rfl, rfl, rfl⟩
      stopped := (by simp) }

theorem control (hst : Controls cfg s s') : s'.Staged := by
  cases hst with
  | stop hcontrol hqueue hd =>
    have hfinals : finals { s with control := .stopped } = 0 := by
      rw [finals, hqueue]
      rfl
    have hsame : s.finals = 0 := by
      rw [finals, hqueue, hcontrol]
      rfl
    have hbegun := h.begun
    rw [Begun, hcontrol] at hbegun
    have hc := h.cleared hd hsame
    have hids : ids { s with control := .stopped } = s.ids := by
      rw [ids, ids, hcontrol]
      rfl
    exact
      { begun := hbegun
        started := h.started
        pending := fun _ => hfinals
        once := hfinals.trans_le (Nat.zero_le 1)
        closing := (by rintro ⟨⟩)
        cleared := fun _ _ => ⟨hc.ended, rfl, hids.trans hc.ids, rfl⟩
        stopped := fun _ => ⟨hd, hfinals⟩ }
  | take events rest hcontrol hqueue =>
    have hfinals :
        finals { s with controlQueue := rest, control := .working { events := events } } =
          s.finals := by
      simp [finals, hqueue, hcontrol, Control.work]
    have hbegun := h.begun
    rw [Begun, hcontrol, hqueue] at hbegun
    refine
      { begun := fun hs => ?_
        started := h.started
        pending := fun hp => hfinals.trans (h.pending hp)
        once := hfinals.trans_le h.once
        closing := (by rintro ⟨⟩)
        cleared := fun hd hf => ?_
        stopped := (by simp) }
    · exact (hbegun hs).imp_right fun hs => hs.resolve_left List.not_mem_nil
    · have hc := h.cleared hd (hfinals.symm.trans hf)
      refine ⟨hc.ended, rfl, ?_, rfl⟩
      have hids := hc.ids
      rwa [ids, hcontrol] at hids
  | takeFinal rest hcontrol hqueue => exact h.takeFinal hcontrol hqueue
  | schedule id type delay visit w hcontrol =>
    refine h.of_same rfl rfl rfl rfl (by rw [hcontrol]; rfl) (by rw [hcontrol]; rfl) (by rintro ⟨⟩)
      fun hc => ?_
    have hcalls := hc.calls
    rw [hcontrol] at hcalls
    cases hcalls
  | cancel fid w hcontrol =>
    obtain ⟨timers, m, hm, heq⟩ := s.cancelTimer_eq fid
    rw [heq]
    refine h.of_same rfl rfl rfl rfl (by rw [hcontrol]; rfl) (by rw [hcontrol]; rfl) (by simp)
      fun hc => ?_
    have hmap : s.timerMap = [] :=
      List.map_eq_nil_iff.1 ((ids_of_working hcontrol).symm.trans hc.ids)
    obtain rfl : m = [] := List.sublist_nil.1 (hmap ▸ hm)
    exact { hc.working hcontrol with ids := rfl }
  | call c w _ hcontrol =>
    exact h.of_same rfl rfl rfl rfl (by rw [hcontrol]; rfl) (by rw [hcontrol]; rfl) (by simp)
      fun hc => hc.working hcontrol
  | trigger e events sweeps hcontrol => exact h.trigger hcontrol
  | sweep hcontrol =>
    refine h.of_same rfl rfl rfl rfl (by rw [hcontrol]; rfl) (by rw [hcontrol]; rfl) (by simp)
      fun hc => ?_
    exact ⟨hc.ended, rfl, (ids_of_working hcontrol).symm.trans hc.ids, rfl⟩
  | finish hcontrol =>
    refine h.of_same rfl rfl rfl rfl (by rw [hcontrol]; rfl) (by rw [hcontrol]; rfl) (by simp)
      fun hc => ?_
    exact ⟨hc.ended, rfl, (ids_of_working hcontrol).symm.trans hc.ids, rfl⟩
  | push fid timer w timers hcontrol hpush =>
    refine h.of_same rfl rfl rfl rfl (by rw [hcontrol]; rfl) (by rw [hcontrol]; rfl) (by simp)
      fun hc => ?_
    have hkey := hc.key
    rw [hcontrol] at hkey
    cases hkey
  | store fid id w hcontrol =>
    refine h.of_same rfl rfl rfl rfl (by rw [hcontrol]; rfl) (by rw [hcontrol]; rfl) (by simp)
      fun hc => ?_
    have hkey := hc.key
    rw [hcontrol] at hkey
    cases hkey
  | clear hcontrol => exact h.clear hcontrol
  | cancelNext i id ids hcontrol hi =>
    refine h.of_same rfl rfl rfl rfl (by rw [hcontrol]; rfl) (by rw [hcontrol]; rfl) (by simp)
      fun hc => ?_
    have hids := hc.ids
    rw [SessionTimers.ids, hcontrol] at hids
    obtain rfl : ids = [] := hids
    cases hi

end Staged

/-! ## The destructor returns -/

structure Safe (s : SessionTimers) : Prop where
  unused : s.misused = false
  stopped : s.destructor = .returned → s.control = .stopped
  quiet : s.destructor = .returned → ∀ timer ∈ s.timers.worker.timer, ¬ s.Owns timer

/-- The callback that is run is that of a timer of the session. -/
theorem owns_of_called {l : TimerService.Label} {type : FsmTimerType}
    (h : s.called l = some type) : ∃ timer ∈ s.timers.worker.timer, s.Owns timer := by
  rw [called.eq_def] at h
  split at h
  · obtain ⟨timer, ht, hlookup⟩ := Option.bind_eq_some_iff.1 h
    obtain ⟨l₁, l₂, heq, -⟩ := List.lookup_eq_some_iff.1 hlookup
    refine ⟨timer, ht, List.mem_map.2 ⟨(timer.ticket, type), ?_, rfl⟩⟩
    exact heq ▸ List.mem_append_right _ List.mem_cons_self
  · cases h

/-- The timers that are left are cancelled. -/
theorem cleared_of_stopped (h : s.Staged) (hstopped : s.control = .stopped) : s.Cleared :=
  h.cleared (h.stopped hstopped).1 (h.stopped hstopped).2

theorem mem_cancelled_of_cleared (h : s.Tracked) (hc : s.Cleared) {timer : TimerService.Entry}
    (ht : timer ∈ s.timers.heap) (hown : s.Owns timer) : timer.id ∈ s.timers.cancelled := by
  refine (h.heap timer ht hown).resolve_right fun hmem => ?_
  rw [hc.ids] at hmem
  cases hmem

theorem Safe.service {l : TimerService.Label} (h : s.Safe) (ht : s.Tracked) (hs : s.Staged)
    (hst : s.service l = some s') : s'.Safe := by
  obtain ⟨-, timers, hstep, heq⟩ := service_eq_some hst
  -- A timer that the loop pops now was not cancelled.
  have hquiet (hd : s.destructor = .returned) : ∀ timer ∈ timers.worker.timer, ¬ s.Owns timer := by
    intro timer hw hown
    rcases TimerService.worker_step hstep hw with hw | ⟨hheap, hnot⟩
    · exact h.quiet hd timer hw hown
    · exact hnot (mem_cancelled_of_cleared ht (cleared_of_stopped hs (h.stopped hd)) hheap hown)
  rcases heq with rfl | ⟨type, hcalled, rfl⟩
  · exact ⟨h.unused, h.stopped, hquiet⟩
  · refine ⟨?_, h.stopped, hquiet⟩
    obtain ⟨timer, hw, hown⟩ := owns_of_called hcalled
    have hne : s.destructor ≠ .returned := fun hd => h.quiet hd timer hw hown
    simp [h.unused, hne]

theorem Controls.same (hst : Controls cfg s s') :
    s'.destructor = s.destructor ∧ s'.misused = s.misused := by
  cases hst with
  | cancel fid =>
    obtain ⟨timers, m, -, heq⟩ := s.cancelTimer_eq fid
    rw [heq]
    exact ⟨rfl, rfl⟩
  | _ => exact ⟨rfl, rfl⟩

theorem Safe.control {i : ℕ} (h : s.Safe) (hst : s.controlLoop cfg i = some s') : s'.Safe := by
  obtain ⟨hdestructor, hmisused⟩ := (controls_of_controlLoop hst).same
  -- The control thread has stopped when the destructor has returned.
  have hne : s'.destructor ≠ .returned := by
    intro hd
    rw [controlLoop, h.stopped (hdestructor ▸ hd)] at hst
    cases hst
  exact ⟨hmisused.trans h.unused, fun hd => absurd hd hne, fun hd => absurd hd hne⟩

structure Inv (s : SessionTimers) : Prop where
  tracked : s.Tracked
  staged : s.Staged
  safe : s.Safe

theorem Inv.step (h : s.Inv) (hg : s.Unpopped l) (hst : s.step cfg l = some s') : s'.Inv := by
  obtain ⟨ht, hs, hsafe⟩ := h
  cases l with
  | service l =>
    refine ⟨?_, hs.service hst, hsafe.service ht hs hst⟩
    obtain ⟨hpushed, timers, hstep, heq⟩ := service_eq_some hst
    have htimers : Tracked { s with timers := timers } :=
      ht.timers (fun _ _ _ hl => hg.1 (by rw [hl]; rfl)) hpushed hstep
    rcases heq with rfl | ⟨type, -, rfl⟩
    · exact htimers
    · exact { htimers with }
  | post events =>
    rw [SessionTimers.step] at hst
    split_ifs at hst
    obtain rfl := Option.some.inj hst
    exact ⟨{ ht with }, hs.post events, { hsafe with }⟩
  | start =>
    rw [SessionTimers.step] at hst
    split_ifs at hst with hstarted
    obtain rfl := Option.some.inj hst
    exact ⟨{ ht with }, hs.start (Bool.eq_false_iff.2 hstarted), { hsafe with }⟩
  | destroy =>
    rw [SessionTimers.step] at hst
    split_ifs at hst with hpending
    obtain rfl := Option.some.inj hst
    exact ⟨{ ht with }, hs.destroy hpending.1 hpending.2, hsafe.unused, (by simp), (by simp)⟩
  | control i =>
    have hcontrols := controls_of_controlLoop hst
    exact ⟨ht.control hg.1 hcontrols, hs.control hcontrols, hsafe.control hst⟩
  | finish =>
    rw [SessionTimers.step] at hst
    split_ifs at hst with hjoined
    obtain rfl := Option.some.inj hst
    obtain ⟨hjoining, hstopped⟩ := hjoined
    have hd : s.destructor ≠ .pending := by simp [hjoining]
    refine ⟨{ ht with }, ?_, hsafe.unused, fun _ => hstopped, fun _ => hg.2⟩
    exact
      { hs with
        started := fun _ => hs.started hd
        pending := (by simp)
        cleared := fun _ hf => { hs.cleared hd hf with }
        stopped := fun hc => ⟨(by simp), (hs.stopped hc).2⟩ }

theorem Inv.init {sessionId : String} {now : ℤ} : (system cfg sessionId now).init.Inv where
  tracked :=
    { wf := TimerService.Wf.init now
      named := (TimerService.Distinguished.init now).named
      tickets := nofun
      nodup := List.nodup_nil
      fresh := nofun
      heap := nofun
      scheduling := nofun }
  staged :=
    { begun := nofun
      started := fun hd => absurd rfl hd
      pending := fun _ => rfl
      once := Nat.zero_le 1
      closing := nofun
      cleared := fun hd => absurd rfl hd
      stopped := nofun }
  safe := ⟨rfl, nofun, nofun⟩

theorem released_of_inv (h : s.Inv) : s.Released where
  unused := h.safe.unused
  heap hd _ ht hown :=
    mem_cancelled_of_cleared h.tracked (cleared_of_stopped h.staged (h.safe.stopped hd)) ht hown
  scheduling hd timer ht hown := by
    have htimer := h.tracked.scheduling timer ht hown
    rw [h.safe.stopped hd] at htimer
    cases htimer

/-- In the runs where the loop holds no timer of the session that it has popped when the
    destructor returns, no callback posts to the session after that, and the timers of the
    session that are left are cancelled. -/
theorem released {sessionId : String} {now : ℤ} {s : SessionTimers}
    (hs : (system cfg sessionId now).ReachableIf Unpopped s) : s.Released :=
  released_of_inv (hs.invariant Inv.init fun _ _ _ h hg hst => h.step hg hst)

/-- The session starts, and the service has its timer. -/
def connecting : List Label :=
  [.service .start, .start] ++ (List.replicate 7 (.control 0) : List Label)

/-- The destructor closes the machine, cancels the timers, and joins the control thread. -/
def destruction : List Label := [.destroy] ++ (List.replicate 12 (.control 0) : List Label)

/-- The destructor returns, and only then the timer of the session is due. -/
def cancelled : List Label :=
  connecting ++ destruction ++
    ([.finish, .service (.tick 10000), .service (.loop 0), .service (.loop 0)] : List Label)

theorem released_cancelled : ∃ s, (system {} "s1" 0).ReachableIf Unpopped s ∧
    s.destructor = .returned ∧ s.timers.heap.map (·.type) = [.connectionTimeout] ∧ s.Released := by
  have hrun : ((system {} "s1" 0).execIf Unpopped (system {} "s1" 0).init cancelled).map
      (fun s => (s.destructor, s.timers.heap.map (·.type))) =
      some (.returned, [.connectionTimeout]) := by
    decide
  obtain ⟨s, hs, heq⟩ := Option.map_eq_some_iff.1 hrun
  obtain ⟨hdestructor, hheap⟩ := Prod.mk.inj heq
  have hreach : (system {} "s1" 0).ReachableIf Unpopped s := .execIf .init hs
  exact ⟨s, hreach, hdestructor, hheap, released hreach⟩

/-- The loop pops the timer, and the destructor returns before its callback is run. -/
def popped : List Label :=
  connecting ++ ([.service (.tick 10000), .service (.loop 0), .service (.loop 0)] : List Label) ++
    destruction ++ ([.finish, .service (.loop 0)] : List Label)

/-- The callback is run on a session that is destroyed. -/
theorem not_released : ¬ ∀ s, (system {} "s1" 0).Reachable s → s.Released := by
  intro h
  have hrun : ((system {} "s1" 0).exec (system {} "s1" 0).init popped).map (·.misused) =
      some true := by
    decide
  obtain ⟨s, hs, hmisused⟩ := Option.map_eq_some_iff.1 hrun
  cases (h s (.exec .init hs)).unused.symm.trans hmisused

end Yuviz.Gateway.SessionTimers
