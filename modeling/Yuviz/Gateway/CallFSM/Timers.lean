import Yuviz.System
import Yuviz.Gateway.CallFSM

/-!
# The timers of the call state machine

What a trigger does to the timers: it leaves them alone, or it cancels the
active timer and arms another one, of a type that fits the state it leaves the
machine in (`run_timers`, `onTimerFired_rearms`).

A `TimedFSM` is the machine with a timer service whose cancellations are
atomic: a timer is delivered as long as it is armed, and a cancelled one never
is. In every reachable state, the active timer is the only armed one, and only
an idle or a closed machine has none (`reachable_armed`).
-/

namespace Yuviz.Gateway

namespace CallFSM

/-! ## What triggers do to the timers -/

/-- A timer of this type may be the active one. -/
structure Fits (f : CallFSM) (type : FsmTimerType) : Prop where
  mem : type ∈ f.state.timers
  confirm : f.state = .waitingForHangup →
    (type = .goodbyeConfirm ↔ f.awaitingGoodbyeConfirm = true)

/-- Only an idle or a closed machine has no active timer, and a goodbye is only
    being confirmed in a machine waiting for the hangup (the flag then stays up
    in a closing one). -/
structure Wf (f : CallFSM) : Prop where
  active : f.activeTimer = kNoTimer ↔ f.state = .idle ∨ f.state = .closed
  awaiting : f.awaitingGoodbyeConfirm = true →
    f.state = .waitingForHangup ∨ f.state = .closing ∨ f.state = .closed

theorem wf_init : Wf {} := ⟨by decide, by decide⟩

theorem Wf.not_awaiting {f : CallFSM} (hwf : Wf f) {s : CallFsmState} (hs : f.state = s)
    (hne : s ≠ .waitingForHangup ∧ s ≠ .closing ∧ s ≠ .closed) :
    f.awaitingGoodbyeConfirm ≠ true := by
  intro ha
  rcases hwf.awaiting ha with h | h | h
  · exact hne.1 (hs.symm.trans h)
  · exact hne.2.1 (hs.symm.trans h)
  · exact hne.2.2 (hs.symm.trans h)

/-- From `f` to the result `x` of a trigger, the active timer is cancelled, and
    replaced by a new one, of id `n`, unless the machine is now closed. -/
inductive Rearms (f : CallFSM) (n : FsmTimerId) (x : Exec) : Prop
  | arm (type : FsmTimerType) (delay : Int) :
      timerCalls x.calls = cancels f ++ [.scheduleTimer n type delay x.fsm.visit] →
      x.fsm.activeTimer = n → x.nextId = n + 1 → x.fsm.Fits type →
      (x.fsm.awaitingGoodbyeConfirm = true →
        x.fsm.state = .waitingForHangup ∨ x.fsm.state = .closing) → Rearms f n x
  | disarm :
      timerCalls x.calls = cancels f → x.fsm.activeTimer = kNoTimer → x.nextId = n →
      x.fsm.state = .closed → Rearms f n x

/-- The result `x` of a trigger on `f` leaves the machine and its timers alone. -/
structure Keeps (f : CallFSM) (n : FsmTimerId) (x : Exec) : Prop where
  fsm : x.fsm = f
  nextId : x.nextId = n
  calls : timerCalls x.calls = []

theorem Rearms.call {f : CallFSM} {n : FsmTimerId} {x : Exec} (h : Rearms f n x)
    {c : HandlerCall} (hc : c.isTimer = false) : Rearms f n (call c x) := by
  cases h with
  | arm type delay hcs ha hn hf hw => exact .arm type delay (by simp [hcs, hc]) ha hn hf hw
  | disarm hcs ha hn hs => exact .disarm (by simp [hcs, hc]) ha hn hs

theorem Keeps.call {f : CallFSM} {n : FsmTimerId} {x : Exec} (h : Keeps f n x)
    {c : HandlerCall} (hc : c.isTimer = false) : Keeps f n (call c x) :=
  ⟨h.fsm, h.nextId, by simp [h.calls, hc]⟩

theorem Rearms.of_activeTimer {f f' : CallFSM} {n : FsmTimerId} {x : Exec}
    (h : Rearms f n x) (ha : f'.activeTimer = f.activeTimer) : Rearms f' n x := by
  have hc : cancels f' = cancels f := by simp only [cancels, ha]
  cases h with
  | arm type delay hcs ha hn hf hw => exact .arm type delay (hc ▸ hcs) ha hn hf hw
  | disarm hcs ha hn hs => exact .disarm (hc ▸ hcs) ha hn hs

section

variable {cfg : CallFsmTimerConfig} {next : CallFsmState} {trigger : String}
  {f : CallFSM} {n : FsmTimerId} {cs : List HandlerCall}

/-- A legal transition replaces the active timer by that of the next state. -/
theorem transition_rearms (hcs : timerCalls cs = []) (hv : isValid f.state next)
    (ha : f.awaitingGoodbyeConfirm = true → next = .closing ∨ next = .closed) :
    Rearms f n (transition cfg next trigger ⟨f, n, cs⟩) := by
  have hm : Moves ⟨f, n, cs⟩ next trigger (transition cfg next trigger ⟨f, n, cs⟩) :=
    transition_moves hv
  obtain ⟨ht, hact, hn, hc⟩ | ⟨type, delay, ht, hne, hact, hn, hc⟩ := hm.calls
  · refine .disarm (by simp [hc, hcs, HandlerCall.isTimer]) hact hn ?_
    rw [hm.state]
    cases next
    case closed => rfl
    case idle => exact absurd hv (by cases f.state <;> decide)
    all_goals exact absurd ht (by decide)
  · refine .arm type delay (by simp [hc, hcs, HandlerCall.isTimer]) hact hn
      ⟨by rw [hm.state]; exact ht, fun hw => ?_⟩ fun hw => ?_
    · rw [hm.awaiting]
      refine ⟨fun h => absurd h hne, fun h => ?_⟩
      rw [hm.state] at hw
      rcases ha h with h | h <;> exact absurd (hw.symm.trans h) (by decide)
    · rw [hm.state]
      rcases ha (hm.awaiting ▸ hw) with h | h
      · exact .inr h
      · exact absurd ht (by simp [h, CallFsmState.timers])

/-- A transition into recognizing is taken here from listening only: leaving a
    wait for the hangup, a confirmed goodbye is reset first. -/
theorem transition_timers (hwf : Wf f) (hcs : timerCalls cs = [])
    (hne : next ≠ .recognizing ∨ f.state = .listening) :
    Keeps f n (transition cfg next trigger ⟨f, n, cs⟩) ∨
      Rearms f n (transition cfg next trigger ⟨f, n, cs⟩) := by
  by_cases hv : isValid f.state next
  · refine .inr (transition_rearms hcs hv fun ha => ?_)
    rcases hwf.awaiting ha with h | h | h <;> rw [h] at hv hne <;> revert hv hne <;>
      cases next <;> decide
  · rw [transition_of_not_isValid hv]
    exact .inl ⟨rfl, rfl, hcs⟩

end

variable (cfg : CallFsmTimerConfig) {f : CallFSM} (n : FsmTimerId)

/-- A trigger leaves the machine and its timers alone, or replaces the active
    timer. -/
theorem run_timers (hwf : Wf f) (t : Trigger) :
    Keeps f n (run cfg t ⟨f, n, []⟩) ∨ Rearms f n (run cfg t ⟨f, n, []⟩) := by
  have keeps : Keeps f n ⟨f, n, []⟩ := ⟨rfl, rfl, rfl⟩
  cases t with
  | sessionStart => exact transition_timers hwf rfl (.inl (by decide))
  | serviceReady =>
    simp only [run, onServiceReady]
    split
    · exact .inl keeps
    · exact transition_timers hwf rfl (.inl (by decide))
  | speechStarted e =>
    simp only [run, onSpeechStarted]
    split
    · next hs =>
      -- The onset of a possible change of mind: the goodbye is to be confirmed.
      have hs : f.state = .waitingForHangup := hs
      exact .inr (.arm .goodbyeConfirm cfg.goodbyeConfirm (by simp [HandlerCall.isTimer])
        (by simp) (by simp) ⟨by simp [hs, CallFsmState.timers], by simp⟩ (by simp [hs]))
    split
    · exact .inl keeps
    · next hs =>
      have hs : f.state = .listening := not_not.1 hs
      exact .inr (.call (transition_rearms rfl (hs ▸ rfl) fun ha =>
        absurd ha (hwf.not_awaiting hs (by decide))) rfl)
  | speechEnded d e =>
    simp only [run, notifySpeechEnded]
    split
    · next hs =>
      -- A blip: the grace period starts again.
      have hs : f.state = .waitingForHangup := hs.1
      refine .inr (.of_activeTimer (f := { f with awaitingGoodbyeConfirm := false }) ?_ rfl)
      exact .arm .goodbyeTimeout cfg.goodbyeTimeout (by simp [HandlerCall.isTimer])
        (by simp) (by simp) ⟨by simp [hs, CallFsmState.timers], by simp⟩ (by simp [hs])
    split
    · exact .inl keeps
    · next hs =>
      have hs : f.state = .recognizing := not_not.1 hs
      refine .inr (.call (.arm .sttTimeout cfg.sttTimeout (by simp [HandlerCall.isTimer])
        (by simp) (by simp) ⟨by simp [hs, CallFsmState.timers], by simp [hs]⟩ fun ha =>
          absurd (by simpa using ha) (hwf.not_awaiting hs (by decide))) rfl)
  | sttFinal text c =>
    simp only [run, onSttFinal]
    split
    · exact .inl keeps
    split
    · exact transition_timers hwf rfl (.inl (by decide))
    · exact (transition_timers hwf rfl (.inl (by decide))).imp (.call · rfl) (.call · rfl)
  | textReady =>
    simp only [run, onTextReady]
    split
    · exact .inl keeps
    · exact transition_timers hwf rfl (.inl (by decide))
  | firstAudioChunk =>
    simp only [run, onFirstAudioChunk]
    split
    · exact .inl keeps
    · exact transition_timers hwf rfl (.inl (by decide))
  | playbackFinished i e o =>
    simp only [run, onPlaybackFinished]
    split
    · exact .inl keeps
    next hs =>
    have hs : f.state = .speaking := not_not.1 hs
    split
    · exact transition_timers hwf rfl (.inl (by decide))
    split
    · let g : CallFSM := { f with pendingGoodbyeTimeoutOverride := o }
      have hg : isValid g.state .waitingForHangup := by rw [show g.state = .speaking from hs]; decide
      have h : Rearms g n (transition cfg .waitingForHangup "goodbye_played" ⟨g, n, []⟩) :=
        transition_rearms rfl hg fun ha => absurd ha (hwf.not_awaiting hs (by decide))
      have h' : Rearms f n (transition cfg .waitingForHangup "goodbye_played" ⟨g, n, []⟩) :=
        h.of_activeTimer rfl
      exact .inr (h'.call rfl)
    · exact (transition_timers hwf rfl (.inl (by decide))).imp (.call · rfl) (.call · rfl)
  | cancelComplete =>
    simp only [run, onCancelComplete, doCancelComplete]
    split
    · exact .inl keeps
    · exact (transition_timers hwf rfl (.inl (by decide))).imp (.call · rfl) (.call · rfl)
  | earlyBargeIn =>
    simp only [run, onEarlyBargeIn]
    split
    · exact .inl keeps
    · exact transition_timers hwf rfl (.inl (by decide))
  | transferRequested q r =>
    simp only [run, onTransferRequested]
    split
    · exact .inl keeps
    · exact transition_timers hwf rfl (.inl (by decide))
  | transferCompleted success id =>
    simp only [run, onTransferCompleted, doTransferCompleted]
    split
    · exact .inl keeps
    split <;> exact transition_timers hwf rfl (.inl (by decide))
  | conversationFinalized =>
    simp only [run, onConversationFinalized, doConversationFinalized]
    split
    · exact .inl keeps
    · exact transition_timers hwf rfl (.inl (by decide))
  | sessionClose r =>
    simp only [run, onSessionClose, doSessionClose]
    split
    · exact .inl keeps
    · exact transition_timers hwf rfl (.inl (by decide))
  | closeAcknowledged =>
    simp only [run, onCloseAcknowledged]
    split
    · exact .inl keeps
    · exact transition_timers hwf rfl (.inl (by decide))

/-- The firing of a timer of a type that fits the state consumes the timer, and
    arms that of the next state. -/
theorem onTimerFired_rearms {type : FsmTimerType} (hwf : Wf f) (hf : f.Fits type) :
    Rearms { f with activeTimer := kNoTimer } n (onTimerFired cfg type ⟨f, n, []⟩) := by
  obtain ⟨s, v, a, o, w, e⟩ := f
  have rearms (next : CallFsmState) (trigger : String) (cs : List HandlerCall)
      (hcs : timerCalls cs = []) (hv : isValid s next)
      (hw : w ≠ true ∨ next = .closing ∨ next = .closed) :
      Rearms ⟨s, v, kNoTimer, o, w, e⟩ n
        (transition cfg next trigger ⟨⟨s, v, kNoTimer, o, w, e⟩, n, cs⟩) :=
    transition_rearms hcs hv fun h => hw.resolve_left (not_not.2 h)
  have hw (hs : s ≠ .waitingForHangup ∧ s ≠ .closing ∧ s ≠ .closed) : w ≠ true :=
    hwf.not_awaiting rfl hs
  have hmem := hf.mem
  cases s <;> simp only [CallFsmState.timers, List.mem_cons, List.not_mem_nil, or_false] at hmem
  case connecting =>
    subst hmem
    exact rearms .closing _ [.onSessionClose "connection_timeout"] rfl rfl (.inr (.inl rfl))
  case listening =>
    subst hmem
    exact rearms .closing _ [.onSessionClose "no_speech_timeout"] rfl rfl (.inr (.inl rfl))
  case recognizing =>
    obtain rfl | rfl := hmem
    · exact rearms .listening "max_utterance_timeout" [] rfl rfl (.inl (hw (by decide)))
    · exact rearms .listening "stt_timeout" [] rfl rfl (.inl (hw (by decide)))
  case thinking =>
    subst hmem
    exact rearms .listening "llm_timeout" [] rfl rfl (.inl (hw (by decide)))
  case synthesizing =>
    subst hmem
    exact rearms .listening "tts_timeout" [] rfl rfl (.inl (hw (by decide)))
  case speaking =>
    subst hmem
    exact rearms .closing _ [.onSessionClose "playback_timeout"] rfl rfl (.inr (.inl rfl))
  case bargeIn =>
    subst hmem
    exact (rearms .listening "cancel_complete" [] rfl rfl (.inl (hw (by decide)))).call rfl
  case transferring =>
    subst hmem
    exact rearms .thinking "transfer_failed" [.onTransferCompleted false ""] rfl rfl
      (.inl (hw (by decide)))
  case finalizing =>
    subst hmem
    exact rearms .closing "conversation_finalized" [.onConversationFinalized] rfl rfl
      (.inr (.inl rfl))
  case closing =>
    subst hmem
    exact rearms .closed "close_timeout_forced" [] rfl rfl (.inr (.inr rfl))
  case waitingForHangup =>
    obtain rfl | rfl := hmem
    · exact rearms .closing _ [.onSessionClose "goodbye_timeout"] rfl rfl (.inr (.inl rfl))
    · -- The goodbye is cancelled, once its confirmation is over.
      obtain rfl : w = true := (hf.confirm rfl).1 rfl
      have h : Rearms ⟨.waitingForHangup, v, kNoTimer, o, false, e⟩ n
          (transition cfg .recognizing "goodbye_cancelled"
            ⟨⟨.waitingForHangup, v, kNoTimer, o, false, e⟩, n, []⟩) :=
        transition_rearms rfl rfl (by simp)
      have h' : Rearms ⟨.waitingForHangup, v, kNoTimer, o, true, e⟩ n _ := h.of_activeTimer rfl
      exact h'.call (c := .onSpeechStarted e) rfl

end CallFSM

/-! ## The timed machine -/

/-- A scheduled timer, of the visit `visit`. -/
structure Timer where
  id : FsmTimerId
  type : FsmTimerType
  visit : ℕ
  deriving DecidableEq, Repr

/-- The effect of a call of the machine on the armed timers. -/
def applyCall (armed : List Timer) : HandlerCall → List Timer
  | .scheduleTimer id type _ visit => armed ++ [⟨id, type, visit⟩]
  | .cancelTimer id => armed.filter fun t => t.id ≠ id
  | _ => armed

/-- The effect of the calls of a trigger on the armed timers. -/
def applyCalls (armed : List Timer) (cs : List HandlerCall) : List Timer :=
  cs.foldl applyCall armed

theorem applyCall_of_not_isTimer {armed : List Timer} {c : HandlerCall}
    (hc : c.isTimer = false) : applyCall armed c = armed := by
  cases c <;> simp_all [applyCall, HandlerCall.isTimer]

/-- Only the calls that schedule or cancel a timer matter. -/
theorem applyCalls_timerCalls (armed : List Timer) (cs : List HandlerCall) :
    applyCalls armed cs = applyCalls armed (CallFSM.timerCalls cs) := by
  induction cs generalizing armed with
  | nil => rfl
  | cons c cs ih =>
    rw [CallFSM.timerCalls_cons]
    split
    · exact ih _
    · next hc => rw [← ih, applyCalls, List.foldl_cons, applyCall_of_not_isTimer (by simpa using hc)]; rfl

/-- The machine with a timer service: the id the next timer gets, and the
    timers scheduled and neither delivered nor cancelled. -/
structure TimedFSM where
  fsm : CallFSM := {}
  nextId : FsmTimerId := 1
  armed : List Timer := []
  deriving DecidableEq, Repr

namespace TimedFSM

/-- A step calls a trigger of the machine, or delivers an armed timer. -/
inductive Label
  | trigger (t : CallFSM.Trigger)
  | deliver (timer : Timer)
  deriving DecidableEq, Repr

/-- The timed machine after a trigger with the result `x`, the timers `armed`
    being armed before. -/
def after (armed : List Timer) (x : CallFSM.Exec) : TimedFSM :=
  ⟨x.fsm, x.nextId, applyCalls armed x.calls⟩

def step (cfg : CallFsmTimerConfig) (s : TimedFSM) : Label → Option TimedFSM
  | .trigger t => some (after s.armed (CallFSM.run cfg t ⟨s.fsm, s.nextId, []⟩))
  | .deliver timer =>
    if timer ∈ s.armed then
      some (after (s.armed.erase timer) (CallFSM.onTimerFired cfg timer.type ⟨s.fsm, s.nextId, []⟩))
    else none

def system (cfg : CallFsmTimerConfig) : System TimedFSM Label where
  init := {}
  step := step cfg

/-- The armed timers are the active one of the machine, if it has one. -/
structure Armed (s : TimedFSM) : Prop where
  wf : s.fsm.Wf
  fresh : s.fsm.activeTimer < s.nextId
  none : s.fsm.activeTimer = kNoTimer → s.armed = []
  some : s.fsm.activeTimer ≠ kNoTimer →
    ∃ type, s.fsm.Fits type ∧ s.armed = [⟨s.fsm.activeTimer, type, s.fsm.visit⟩]

theorem armed_init : Armed {} := ⟨CallFSM.wf_init, by decide, fun _ => rfl, fun h => absurd rfl h⟩

/-- The calls cancelling the active timer leave no timer armed. -/
theorem Armed.applyCalls_cancels {s : TimedFSM} (h : Armed s) :
    applyCalls s.armed s.fsm.cancels = [] := by
  unfold CallFSM.cancels
  split
  · next ha =>
    obtain ⟨type, -, harmed⟩ := h.some ha
    simp [applyCalls, applyCall, harmed]
  · next ha => exact h.none (not_not.1 ha)

/-- A trigger cancelling all armed timers and arming the next one. -/
theorem armed_of_rearms {f : CallFSM} {n : FsmTimerId} {armed : List Timer} {x : CallFSM.Exec}
    (hn : n ≠ kNoTimer) (hc : applyCalls armed f.cancels = []) (h : CallFSM.Rearms f n x) :
    Armed (after armed x) := by
  cases h with
  | arm type delay hcs ha hnext hf hw =>
    have harmed : applyCalls armed x.calls = [⟨n, type, x.fsm.visit⟩] := by
      rw [applyCalls_timerCalls, hcs, applyCalls, List.foldl_append]
      change applyCalls (applyCalls armed f.cancels) _ = _
      rw [hc]
      rfl
    have hs : ¬(x.fsm.state = .idle ∨ x.fsm.state = .closed) := by
      have hm := hf.mem
      rintro (hs | hs) <;> simp [hs, CallFsmState.timers] at hm
    have hact : x.fsm.activeTimer ≠ kNoTimer := ha ▸ hn
    refine ⟨⟨⟨fun h => absurd h hact, fun h => absurd h hs⟩, fun h => ?_⟩, ?_,
      fun h => absurd h hact, fun _ => ⟨type, hf, ?_⟩⟩
    · exact (hw h).imp_right .inl
    · change x.fsm.activeTimer < x.nextId
      rw [ha, hnext]
      exact Nat.lt_succ_self n
    · change applyCalls armed x.calls = [⟨x.fsm.activeTimer, type, x.fsm.visit⟩]
      rw [harmed, ha]
  | disarm hcs ha hnext hs =>
    refine ⟨⟨⟨fun _ => .inr hs, fun _ => ha⟩, fun _ => .inr (.inr hs)⟩, ?_, fun _ => ?_,
      fun h => absurd ha h⟩
    · change x.fsm.activeTimer < x.nextId
      rw [ha, hnext]
      exact Nat.pos_of_ne_zero hn
    · change applyCalls armed x.calls = []
      rw [applyCalls_timerCalls, hcs]
      exact hc

variable {cfg : CallFsmTimerConfig} {s s' : TimedFSM}

theorem Armed.step {l : Label} (h : Armed s) (hst : (system cfg).step s l = Option.some s') :
    Armed s' := by
  have hn : s.nextId ≠ kNoTimer := Nat.ne_of_gt (Nat.zero_lt_of_lt h.fresh)
  cases l with
  | trigger t =>
    obtain rfl := Option.some.inj hst
    obtain hk | hr := CallFSM.run_timers cfg s.nextId h.wf t
    · -- The trigger is ignored.
      have hs : after s.armed (CallFSM.run cfg t ⟨s.fsm, s.nextId, []⟩) = s := by
        rw [after, hk.fsm, hk.nextId, applyCalls_timerCalls, hk.calls]
        rfl
      change Armed (after s.armed (CallFSM.run cfg t ⟨s.fsm, s.nextId, []⟩))
      rwa [hs]
    · exact armed_of_rearms hn h.applyCalls_cancels hr
  | deliver timer =>
    simp only [system, TimedFSM.step, Option.ite_none_right_eq_some, Option.some.injEq] at hst
    obtain ⟨hmem, rfl⟩ := hst
    -- Only the active timer is armed: it is the one delivered.
    have ha : s.fsm.activeTimer ≠ kNoTimer := fun ha => by simp [h.none ha] at hmem
    obtain ⟨type, hf, harmed⟩ := h.some ha
    obtain rfl := List.mem_singleton.1 (harmed ▸ hmem)
    have hr := CallFSM.onTimerFired_rearms cfg s.nextId h.wf hf
    exact armed_of_rearms hn (by simp [harmed, CallFSM.cancels, applyCalls]) hr

/-- In every reachable state, an idle or a closed machine has no armed timer,
    and any other one exactly one: its active timer, of a type of its state. -/
theorem reachable_armed (h : (system cfg).Reachable s) :
    ((s.fsm.state = .idle ∨ s.fsm.state = .closed) → s.armed = []) ∧
      (s.fsm.state ≠ .idle → s.fsm.state ≠ .closed →
        ∃ timer, s.armed = [timer] ∧ timer.id = s.fsm.activeTimer ∧
          timer.type ∈ s.fsm.state.timers ∧
          (s.fsm.state = .waitingForHangup →
            (timer.type = .goodbyeConfirm ↔ s.fsm.awaitingGoodbyeConfirm = true))) := by
  have hI : Armed s := h.invariant armed_init fun _ _ _ hI => hI.step
  refine ⟨fun hs => hI.none (hI.wf.active.2 hs), fun hidle hclosed => ?_⟩
  have ha : s.fsm.activeTimer ≠ kNoTimer := fun ha =>
    (hI.wf.active.1 ha).elim hidle hclosed
  obtain ⟨type, hf, harmed⟩ := hI.some ha
  exact ⟨_, harmed, rfl, hf.mem, hf.confirm⟩

/-- The goodbye has been played, and a sound of the caller is being confirmed:
    the armed timer is that of the confirmation. -/
theorem reachable_armed_goodbye :
    ∃ s : TimedFSM, (system {}).Reachable s ∧ s.fsm.state = .waitingForHangup ∧
      ∃ timer, s.armed = [timer] ∧ timer.type = .goodbyeConfirm := by
  let s : TimedFSM := {
    fsm := {
      state := .waitingForHangup
      visit := 7
      activeTimer := 8
      awaitingGoodbyeConfirm := true
      pendingGoodbyeEnergyDb := -20 }
    nextId := 9
    armed := [⟨8, .goodbyeConfirm, 7⟩] }
  have hexec : (system {}).exec {} [.trigger .sessionStart, .trigger .serviceReady,
      .trigger (.speechStarted (-30)), .trigger (.sttFinal "goodbye" 1), .trigger .textReady,
      .trigger .firstAudioChunk, .trigger (.playbackFinished false true 0),
      .trigger (.speechStarted (-20))] = Option.some s := by decide
  have hs : (system {}).Reachable s := System.Reachable.exec .init hexec
  obtain ⟨timer, harmed, -, -, hconfirm⟩ := (reachable_armed hs).2 (by decide) (by decide)
  exact ⟨s, hs, rfl, timer, harmed, (hconfirm rfl).2 rfl⟩

end TimedFSM

end Yuviz.Gateway
