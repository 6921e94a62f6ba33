import Mathlib
import Yuviz.Call.Expects
import Yuviz.Gateway.CallSession.Steps

/-!
# What the gateway answers

While the service expects something, the gateway is in a state that ends with
the message expected (`Expects.MetIn`). It stays in one until it has sent it, if
it does not time out while the service is about to speak
(`process_met`).
-/

namespace Yuviz

open Gateway

namespace Expects

/-- What is expected is to come from this state, unless the call is ending. -/
def MetIn (x : Expects) (state : CallFsmState) : Prop :=
  match x with
  | .nothing => True
  | .outcome => state ∈ [CallFsmState.transferring, .finalizing, .closing, .closed]
  | .playback => state ∈ [CallFsmState.thinking, .synthesizing, .speaking, .bargeIn, .transferring,
      .finalizing, .closing, .closed]

instance (x : Expects) (state : CallFsmState) : Decidable (x.MetIn state) := by
  unfold MetIn
  split <;> infer_instance

/-- What is expected after an effect of the session. -/
def sent (x : Expects) : SessionEffect → Expects
  | .sendTransferInitiated .. => .outcome
  | .sendTransferFailed .. => .playback
  | .cancelGeneration | .sendPlaybackFinished _ => x.released
  | _ => x

/-- What is expected after a call of a handler. -/
def called (x : Expects) : HandlerCall → Expects
  | .onTransferCompleted false _ => .playback
  | .onPlaybackFinished _ => x.released
  | _ => x

variable {x y : Expects} {state : CallFsmState} {f : CallFSM} {e : CallFSM.Event}

theorem MetIn.of_atMost (h : y.MetIn state) (hx : x.AtMost y) : x.MetIn state := by
  rcases hx with rfl | rfl
  · trivial
  · exact h

/-- A state from which the call ends meets anything. -/
theorem metIn_of_mem (h : state ∈ [CallFsmState.transferring, .finalizing, .closing, .closed]) :
    x.MetIn state := by
  cases x
  · trivial
  · exact h
  · simp only [List.mem_cons, List.not_mem_nil, or_false] at h
    rcases h with rfl | rfl | rfl | rfl <;> decide

theorem foldl_sent_sendAudio (frames : List AudioFrame) :
    (frames.map SessionEffect.sendAudio).foldl sent x = x := by
  induction frames with
  | nil => rfl
  | cons frame frames ih => exact ih

theorem foldl_sent_callEffects (s : CallSession) (c : HandlerCall) :
    (CallSession.callEffects s c).foldl sent x = x.called c := by
  cases c
  case onStateChanged source target trigger =>
    simp only [CallSession.callEffects]
    split_ifs
    · exact foldl_sent_sendAudio _
    · rfl
  case onTransferCompleted success destination =>
    simp only [CallSession.callEffects]
    rcases s.activeTransfer with _ | type <;> cases success <;> rfl
  case onSessionClose reason =>
    simp only [CallSession.callEffects]
    split_ifs <;> rfl
  all_goals rfl

theorem foldl_sent_calls (s : CallSession) (cs : List HandlerCall) :
    (cs.flatMap (CallSession.callEffects s)).foldl sent x = cs.foldl called x := by
  induction cs generalizing x with
  | nil => rfl
  | cons c cs ih =>
    rw [List.flatMap_cons, List.foldl_append, foldl_sent_callEffects, ih, List.foldl_cons]

/-- The machine stops waiting for the speech of the service. -/
def TimesOut (f : CallFSM) (e : CallFSM.Event) : Prop :=
  (e = .timerFired .llmTimeout ∧ f.state = .thinking) ∨
    (e = .timerFired .ttsTimeout ∧ f.state = .synthesizing)

theorem foldl_called (f : CallFSM) (e : CallFSM.Event) :
    (e.outline f).foldl called x =
      if e.valid f then (e.handler? f).elim x x.called else x := by
  have hchange (y : Expects) : ((e.target? f).toList.map fun next =>
      HandlerCall.onStateChanged f.state next "").foldl called y = y := by
    rcases e.target? f with _ | next <;> rfl
  have hhandler : (e.handler? f).toList.foldl called x = (e.handler? f).elim x x.called := by
    rcases e.handler? f with _ | c <;> rfl
  by_cases hv : e.valid f = true
  · rw [if_pos hv]
    rcases CallFSM.Event.outline_cases f e with ⟨-, ho | ho⟩ | ⟨hn, -⟩
    · rw [ho, List.foldl_append, hchange, hhandler]
    · rw [ho, List.foldl_append, hhandler, hchange]
    · rw [hv] at hn
      cases hn
  · -- the handlers that are called though the event is not valid send no message
    simp only [CallFSM.Event.outline, hv, if_false, Bool.false_eq_true]
    split
    · split_ifs <;> rfl
    · split_ifs <;> rfl
    · split_ifs <;> rfl
    · rfl

theorem called_metIn (h : x.MetIn f.state) (ht : TimesOut f e → x ≠ .playback)
    (hv : e.valid f = true) : ((e.handler? f).elim x x.called).MetIn (e.next f) := by
  rw [CallFSM.Event.next, if_pos hv]
  rcases e with t | type
  · cases t <;> simp only [CallFSM.Event.valid, CallFSM.Event.handler?, CallFSM.Event.target?,
      Option.elim, Option.getD, decide_eq_true_eq] at hv ⊢
    case transferCompleted success id =>
      cases success
      · exact (by decide : MetIn .playback .thinking)
      · exact metIn_of_mem (by decide)
    case transferRequested | conversationFinalized | sessionClose | closeAcknowledged =>
      exact metIn_of_mem (by decide)
    case speechStarted energyDb =>
      cases x <;> split_ifs <;> simp_all [MetIn, called]
    case speechEnded durationMs energyDb =>
      cases x <;> split_ifs <;> simp_all [MetIn, called]
    case sttFinal text confidence =>
      cases x <;> split_ifs <;> simp_all [MetIn, called]
    case playbackFinished interrupted endCall timeout =>
      cases x <;> split_ifs <;> simp_all [MetIn, called, released]
    case cancelComplete => cases x <;> simp_all [MetIn, called, released]
    case earlyBargeIn => cases x <;> rcases hv with hv | hv <;> simp_all [MetIn]
    all_goals cases x <;> simp_all [MetIn]
  · cases type <;> simp only [CallFSM.Event.valid, CallFSM.Event.handler?, CallFSM.Event.target?,
      Option.elim, Option.getD, decide_eq_true_eq] at hv ⊢
    case maxUtteranceTimeout | sttTimeout | llmTimeout | ttsTimeout =>
      cases x <;> simp_all [MetIn, TimesOut]
    case goodbyeConfirm | bargeInWindow =>
      cases x <;> simp_all [MetIn, called, released]
    case transferTimeout => exact (by decide : MetIn .playback .thinking)
    all_goals exact metIn_of_mem (by decide)

/-- An event of the machine. -/
theorem event_metIn (h : x.MetIn f.state) (ht : TimesOut f e → x ≠ .playback) :
    ((e.outline f).foldl called x).MetIn (e.next f) := by
  rw [foldl_called]
  split_ifs with hv
  · exact called_metIn h ht hv
  · rw [CallFSM.Event.next, if_neg hv]
    exact h

/-- The session does not stop waiting for the speech that the service is expected
    to finish, and starts a transfer only where it awaits its outcome. -/
def Answers (x : Expects) (s : CallSession) : SessionItem → Prop
  | .timerFired .llmTimeout => s.fsm.state = .thinking → x ≠ .playback
  | .timerFired .ttsTimeout => s.fsm.state = .synthesizing → x ≠ .playback
  | .transferBody .. => s.fsm.state ∈ [CallFsmState.transferring, .finalizing, .closing, .closed]
  | _ => True

instance (x : Expects) (s : CallSession) : DecidablePred (Answers x s) := fun item => by
  unfold Answers
  split <;> infer_instance

variable {cfg : CallFsmTimerConfig} {playing : Bool} {item : SessionItem} {s : CallSession}

/-- What the session sends before the event of an item. -/
theorem prepare_metIn (playing : Bool) (h : x.MetIn s.fsm.state) (ha : x.Answers s item) :
    ((CallSession.prepare playing item ⟨s, []⟩).effects.foldl sent x).MetIn s.fsm.state := by
  cases item
  case transferBody destination reason =>
    simp only [CallSession.prepare]
    split_ifs <;> exact ha
  case audioFrame frame =>
    simp only [CallSession.prepare, CallSession.onAudioFrame]
    split_ifs <;> exact h
  case speechStarted energyDb =>
    have hreleased : x.released.MetIn s.fsm.state := h.of_atMost (atMost_released x)
    cases playing <;> simp only [CallSession.prepare] <;> split <;>
      first | exact hreleased | exact h
  case speechEnded =>
    simp only [CallSession.prepare]
    split_ifs <;> exact h
  all_goals exact h

/-- The time-outs are events of their timers, before which nothing is sent. -/
theorem ne_playback_of_timesOut (ha : x.Answers s item) (he : item.event? s = some e)
    (ht : TimesOut s.fsm e) :
    (CallSession.prepare playing item ⟨s, []⟩).effects.foldl sent x ≠ .playback := by
  have hitem {type : FsmTimerType} (h : item.event? s = some (.timerFired type)) :
      item = .timerFired type := by
    cases item
    case speechStarted energyDb =>
      simp only [SessionItem.event?] at h
      split at h
      all_goals simp at h
    case transferBody | terminate | speechEnded =>
      simp only [SessionItem.event?] at h
      split_ifs at h
      simp at h
    all_goals simp_all [SessionItem.event?]
  rcases ht with ⟨rfl, hs⟩ | ⟨rfl, hs⟩
  · obtain rfl := hitem he
    exact ha hs
  · obtain rfl := hitem he
    exact ha hs

theorem process_metIn (h : x.MetIn s.fsm.state) (ha : x.Answers s item) :
    ((CallSession.process cfg playing item ⟨s, []⟩).effects.foldl sent x).MetIn
      (CallSession.process cfg playing item ⟨s, []⟩).session.fsm.state := by
  by_cases hc : CallSession.Completes s item
  · -- the notice of the interrupted playback goes out last
    rw [(CallSession.process_of_completes _ _ (x := ⟨s, []⟩) hc).2, List.nil_append, List.foldl_append]
    have hreplay : (if CallSession.HasReplay s then
        (s.preroll ++ s.bargeInBuffer).map SessionEffect.sendAudio ++
          (if s.pendingSpeechEnded then
            [SessionEffect.sendSpeechEnded s.pendingSeDurationMs s.pendingSeEnergyDb] else [])
        else []).foldl sent x = x := by
      split_ifs
      · rw [List.foldl_append, foldl_sent_sendAudio]
        rfl
      · rw [List.foldl_append, foldl_sent_sendAudio]
        rfl
      · rfl
    rw [hreplay]
    have hs : s.fsm.state = .bargeIn := hc.1
    rw [hs] at h
    cases x
    · trivial
    · exact absurd h (by decide)
    · trivial
  · obtain ⟨⟨g, n, hs, hg⟩, heffects⟩ := CallSession.process_of_not_completes cfg playing (x := ⟨s, []⟩) hc
    have hprep := prepare_metIn playing h ha
    rw [heffects, hs, List.foldl_append, foldl_sent_calls, hg]
    cases he : item.event? s with
    | none =>
      rw [CallSession.calls_of_no_event he, CallSession.nextState_of_no_event he]
      exact hprep
    | some e =>
      rw [CallSession.calls_of_event he, CallSession.nextState_of_event he]
      exact event_metIn hprep (ne_playback_of_timesOut ha he)

end Expects

/-! ## The end of the call -/

namespace Gateway

/-- The call ends without another word of the service. -/
def CallFsmState.leaves (state : CallFsmState) : Bool := state ∈ [finalizing, closing, closed]

namespace CallSession

variable {cfg : CallFsmTimerConfig} {playing : Bool} {item : SessionItem} {s : CallSession}
  {f : CallFSM} {e : CallFSM.Event}

theorem next_of_leaves (h : f.state.leaves = true) : (e.next f).leaves = true := by
  simp only [CallFsmState.leaves, List.mem_cons, List.not_mem_nil, or_false, decide_eq_true_eq] at h
  rcases h with h | h
  · rcases e with t | type
    · cases t <;> simp +decide [CallFSM.Event.next, CallFSM.Event.valid, CallFSM.Event.target?, h,
        CallFsmState.leaves]
    · cases type <;> simp +decide [CallFSM.Event.next, CallFSM.Event.valid,
        CallFSM.Event.target?, h, CallFsmState.leaves]
  · rcases CallFSM.Event.next_of_closing h with hn | hn <;> rw [hn] <;> rfl

theorem process_leaves (h : s.fsm.state.leaves = true) :
    (process cfg playing item ⟨s, []⟩).session.fsm.state.leaves = true := by
  rcases process_state cfg playing item ⟨s, []⟩ with
    hn | ⟨hs, -⟩
  · rw [hn, nextState]
    rcases item.event? s with _ | e
    · exact h
    · exact next_of_leaves h
  · have hs : s.fsm.state = .bargeIn := hs
    rw [hs] at h
    cases h

/-- A session that is terminated ends the call, once it has started. -/
theorem process_terminate (hs : s.fsm.state ≠ .idle) (reason : String) :
    (process cfg playing (.terminate reason) ⟨s, []⟩).session.fsm.state.leaves = true := by
  have hc : ¬Completes s (.terminate reason) := by
    rintro ⟨-, -, hi | hi⟩ <;> cases hi
  obtain ⟨⟨f, n, hsession, hf⟩, -⟩ := process_of_not_completes cfg playing
    (x := ⟨s, []⟩) hc
  rw [hsession, hf]
  simp only [nextState, SessionItem.event?]
  by_cases ht : s.fsm.isTerminal = true
  · rw [if_pos ht]
    have hclosed : s.fsm.state = .closed := of_decide_eq_true ht
    simp only [Option.elim, hclosed]
    rfl
  · rw [if_neg ht]
    simp only [Option.elim, CallFSM.Event.next, CallFSM.Event.valid, CallFSM.Event.target?]
    have hnext : ∀ state : CallFsmState, state ≠ .idle →
        CallFsmState.leaves (if CallFSM.isValid state .closing then .closing else state) = true := by
      intro state
      cases state <;> decide
    exact hnext _ hs

theorem target_ne_idle : e.target? f ≠ some .idle := by
  rcases e with t | type
  · cases t <;> simp only [CallFSM.Event.target?]
    case speechStarted | sttFinal | playbackFinished | transferCompleted =>
      split_ifs <;> simp
    all_goals simp
  · cases type <;> simp [CallFSM.Event.target?]

/-- A session does not go back to where it started from. -/
theorem process_ne_idle (h : s.fsm.state = .idle → item = .sessionStart) :
    (process cfg playing item ⟨s, []⟩).session.fsm.state ≠ .idle := by
  rcases process_state cfg playing item ⟨s, []⟩ with
    hn | ⟨-, hr | hr⟩
  · rw [hn]
    intro hidle
    rcases nextState_cases s item with hs | ⟨e, -, -, ht⟩
    · obtain rfl := h (hs.symm.trans hidle)
      have hs : s.fsm.state = .idle := hs.symm.trans hidle
      simp [nextState, SessionItem.event?, CallFSM.Event.next, CallFSM.Event.valid,
        CallFSM.Event.target?, hs] at hidle
    · rw [hidle] at ht
      exact target_ne_idle ht
  · rw [hr]
    simp
  · rw [hr]
    simp

theorem handler_of_mem_outline {c : HandlerCall} (hc : c ∈ e.outline f)
    (h : CallFSM.isSemantic c = true) : e.handler? f = some c := by
  have hchange : c ∉ (e.target? f).toList.map fun next =>
      HandlerCall.onStateChanged f.state next "" := by
    intro hmem
    obtain ⟨next, -, rfl⟩ := List.mem_map.1 hmem
    cases h
  rcases CallFSM.Event.outline_cases f e with ⟨-, ho | ho⟩ | ⟨-, ho | ho⟩
  · rw [ho, List.mem_append] at hc
    exact Option.mem_toList.1 (hc.resolve_left hchange)
  · rw [ho, List.mem_append] at hc
    exact Option.mem_toList.1 (hc.resolve_right hchange)
  · rw [ho] at hc
    exact Option.mem_toList.1 hc
  · rw [ho] at hc
    cases hc

/-- The state in which a call of a handler leaves the machine, if it tells the
    service that the call ends. -/
def endOfCall? : HandlerCall → Option CallFsmState
  | .onConversationFinalized => some .closing
  | .onTransferCompleted true _ => some .finalizing
  | _ => none

/-- The state in which an effect leaves the machine, if it tells the service that
    the call ends. -/
def endOf? : SessionEffect → Option CallFsmState
  | .closeSession => some .closing
  | .sendTransferCompleted .. => some .finalizing
  | _ => none

variable {a : SessionEffect} {c : HandlerCall} {state : CallFsmState}

theorem next_of_endOfCall (hc : c ∈ e.outline f) (h : endOfCall? c = some state) :
    e.next f = state := by
  -- an event that is not valid calls no such handler
  have hnext (ho : e.valid f = false → e.outline f = []) (ht : e.target? f = some state) :
      e.next f = state := by
    by_cases hv : e.valid f = true
    · rw [CallFSM.Event.next, if_pos hv, ht]
      rfl
    · rw [ho (by simpa using hv)] at hc
      cases hc
  cases c
  case onConversationFinalized =>
    cases h
    have hh : e.handler? f = some .onConversationFinalized := handler_of_mem_outline hc rfl
    rcases e with t | type
    · cases t <;> simp [CallFSM.Event.handler?] at hh
      exact hnext (fun hv => by simp [CallFSM.Event.outline, hv]) rfl
    · cases type <;> simp [CallFSM.Event.handler?] at hh
      exact hnext (fun hv => by simp [CallFSM.Event.outline, hv]) rfl
  case onTransferCompleted success id =>
    cases success
    · cases h
    · cases h
      have hh : e.handler? f = some (.onTransferCompleted true id) := handler_of_mem_outline hc rfl
      rcases e with t | type
      · cases t <;> simp [CallFSM.Event.handler?] at hh
        obtain ⟨rfl, rfl⟩ := hh
        exact hnext (fun hv => by simp [CallFSM.Event.outline, hv]) rfl
      · cases type <;> simp [CallFSM.Event.handler?] at hh
  all_goals cases h

theorem endOf_callEffects (ha : a ∈ callEffects s c) (h : endOf? a = some state) :
    endOfCall? c = some state := by
  cases c
  case onStateChanged source target trigger =>
    simp only [callEffects] at ha
    split_ifs at ha
    · obtain ⟨frame, -, rfl⟩ := List.mem_map.1 ha
      cases h
    · cases ha
  case onTransferCompleted success destination =>
    simp only [callEffects, List.mem_append, List.mem_map, List.mem_singleton] at ha
    rcases ha with ⟨type, -, rfl⟩ | rfl
    · cases h
    · cases success
      · cases h
      · exact h
  case onSessionClose reason =>
    simp only [callEffects, List.mem_cons] at ha
    rcases ha with rfl | ha
    · cases h
    · split_ifs at ha
      · cases ha
      · obtain rfl := List.mem_singleton.1 ha
        cases h
  case onConversationFinalized =>
    obtain rfl := List.mem_singleton.1 ha
    exact h
  case onSpeechEnded | onPlaybackFinished | onTransferRequested =>
    obtain rfl := List.mem_singleton.1 ha
    cases h
  all_goals cases ha

theorem endOf_prepare (ha : a ∈ (prepare playing item ⟨s, []⟩).effects) : endOf? a = none := by
  cases item
  case audioFrame frame =>
    simp only [prepare, onAudioFrame] at ha
    split_ifs at ha
    · obtain rfl := List.mem_singleton.1 ha
      rfl
    all_goals cases ha
  case transferBody destination reason =>
    simp only [prepare] at ha
    split_ifs at ha <;> simp only [emit, List.nil_append, List.mem_append, List.mem_singleton] at ha
    · rw [ha]
      rfl
    · rcases ha with rfl | rfl <;> rfl
  case speechStarted energyDb =>
    have ha : a = .cancelPlayback ∨ a = .cancelGeneration := by
      cases playing <;> simp only [prepare] at ha <;> split at ha <;>
        simp_all [emit, startCapture]
    rcases ha with rfl | rfl <;> rfl
  case speechEnded =>
    simp only [prepare] at ha
    split_ifs at ha <;> cases ha
  all_goals cases ha

/-- An effect that tells the service that the call ends. -/
theorem process_endOf (ha : a ∈ (process cfg playing item ⟨s, []⟩).effects)
    (h : endOf? a = some state) :
    (process cfg playing item ⟨s, []⟩).session.fsm.state = state := by
  by_cases hc : Completes s item
  · rw [(process_of_completes _ _ (x := ⟨s, []⟩) hc).2] at ha
    simp only [List.nil_append, List.mem_append, List.mem_singleton] at ha
    rcases ha with ha | rfl
    · split_ifs at ha
      · rw [List.mem_append, List.mem_map, List.mem_singleton] at ha
        rcases ha with ⟨frame, -, rfl⟩ | rfl <;> cases h
      · rw [List.append_nil, List.mem_map] at ha
        obtain ⟨frame, -, rfl⟩ := ha
        cases h
      · cases ha
    · cases h
  · obtain ⟨⟨g, n, hs, hg⟩, heffects⟩ := process_of_not_completes cfg playing (x := ⟨s, []⟩) hc
    rw [heffects, List.mem_append] at ha
    rw [hs, hg]
    rcases ha with ha | ha
    · rw [endOf_prepare ha] at h
      cases h
    · obtain ⟨c, hcall, ha⟩ := List.mem_flatMap.1 ha
      cases he : item.event? s with
      | none =>
        rw [calls_of_no_event he] at hcall
        cases hcall
      | some e =>
        rw [calls_of_event he] at hcall
        rw [nextState_of_event he]
        exact next_of_endOfCall hcall (endOf_callEffects ha h)

end CallSession

end Gateway

end Yuviz
