import Yuviz.System
import Yuviz.Gateway.CallFSM

/-!
# Handlers and transitions

A trigger asks for a transition (`Event.target?`), and most have a handler
attached (`Event.handler?`): both are to happen, or neither.

* `agrees_iff`: exactly when an event does so. A transfer request runs its
  handler in every active state, also where no transfer can start, and a close
  of the session runs its handler in an idle machine, which cannot close.
* `reachable_handlers`: in the runs without these two, the session is closed at
  most once, and a transfer is only requested by entering `transferring`.
-/

namespace Yuviz.Gateway

namespace CallFSM

/-- A trigger, or the firing of a timer. -/
inductive Event
  | trigger (t : Trigger)
  | timerFired (type : FsmTimerType)
  deriving DecidableEq, Repr

namespace Event

/-- The trigger method of an event. -/
def run (cfg : CallFsmTimerConfig) : Event → Exec → Exec
  | .trigger t => CallFSM.run cfg t
  | .timerFired type => onTimerFired cfg type

/-- The event is valid in the state of the machine. -/
def valid (f : CallFSM) : Event → Bool
  | .trigger .sessionStart => f.state = .idle
  | .trigger .serviceReady => f.state = .connecting
  | .trigger (.speechStarted _) => f.state = .listening ∨ f.state = .waitingForHangup
  | .trigger (.speechEnded ..) =>
    f.state = .recognizing ∨ f.state = .waitingForHangup ∧ f.awaitingGoodbyeConfirm
  | .trigger (.sttFinal ..) => f.state = .recognizing
  | .trigger .textReady => f.state = .thinking
  | .trigger .firstAudioChunk => f.state = .synthesizing
  | .trigger (.playbackFinished ..) => f.state = .speaking
  | .trigger .cancelComplete => f.state = .bargeIn
  | .trigger .earlyBargeIn => f.state = .thinking ∨ f.state = .synthesizing
  | .trigger (.transferRequested ..) => isValid f.state .transferring
  | .trigger (.transferCompleted ..) => f.state = .transferring
  | .trigger .conversationFinalized => f.state = .finalizing
  | .trigger (.sessionClose _) | .timerFired .rtpInactivity => isValid f.state .closing
  | .trigger .closeAcknowledged => f.state = .closing
  | .timerFired .connectionTimeout => f.state = .connecting
  | .timerFired .noSpeechTimeout => f.state = .listening
  | .timerFired .maxUtteranceTimeout | .timerFired .sttTimeout => f.state = .recognizing
  | .timerFired .llmTimeout => f.state = .thinking
  | .timerFired .ttsTimeout => f.state = .synthesizing
  | .timerFired .playbackTimeout => f.state = .speaking
  | .timerFired .goodbyeTimeout => f.state = .waitingForHangup
  | .timerFired .goodbyeConfirm => f.state = .waitingForHangup ∧ f.awaitingGoodbyeConfirm
  | .timerFired .bargeInWindow => f.state = .bargeIn
  | .timerFired .transferTimeout => f.state = .transferring
  | .timerFired .finalizingTimeout => f.state = .finalizing
  | .timerFired .closeTimeout => f.state = .closing

/-- The state the event asks the machine to enter, if any: the end of speech
    asks for none, nor does its onset in a machine waiting for the hangup. -/
def target? (f : CallFSM) : Event → Option CallFsmState
  | .trigger .sessionStart => some .connecting
  | .trigger .serviceReady => some .listening
  | .trigger (.speechStarted _) =>
    if f.state = .waitingForHangup then none else some .recognizing
  | .trigger (.speechEnded ..) => none
  | .trigger (.sttFinal text _) => some (if text.isEmpty then .listening else .thinking)
  | .trigger .textReady => some .synthesizing
  | .trigger .firstAudioChunk => some .speaking
  | .trigger (.playbackFinished interrupted endCallPending _) =>
    some (if interrupted then .bargeIn else if endCallPending then .waitingForHangup else .listening)
  | .trigger .cancelComplete | .timerFired .bargeInWindow => some .listening
  | .trigger .earlyBargeIn => some .bargeIn
  | .trigger (.transferRequested ..) => some .transferring
  | .trigger (.transferCompleted success _) => some (if success then .finalizing else .thinking)
  | .trigger .conversationFinalized | .timerFired .finalizingTimeout => some .closing
  | .trigger (.sessionClose _) => some .closing
  | .trigger .closeAcknowledged | .timerFired .closeTimeout => some .closed
  | .timerFired .connectionTimeout | .timerFired .noSpeechTimeout
  | .timerFired .playbackTimeout | .timerFired .goodbyeTimeout
  | .timerFired .rtpInactivity => some .closing
  | .timerFired .maxUtteranceTimeout | .timerFired .sttTimeout
  | .timerFired .llmTimeout | .timerFired .ttsTimeout => some .listening
  | .timerFired .goodbyeConfirm => some .recognizing
  | .timerFired .transferTimeout => some .thinking

/-- The handler attached to the event, if any. -/
def handler? (f : CallFSM) : Event → Option HandlerCall
  | .trigger (.speechStarted e) =>
    if f.state = .waitingForHangup then none else some (.onSpeechStarted e)
  | .trigger (.speechEnded d e) =>
    if f.state = .recognizing then some (.onSpeechEnded d e) else none
  | .trigger (.sttFinal text c) => if text.isEmpty then none else some (.onSttFinal text c)
  | .trigger (.playbackFinished interrupted ..) =>
    if interrupted then none else some (.onPlaybackFinished false)
  | .trigger .cancelComplete | .timerFired .bargeInWindow => some (.onPlaybackFinished true)
  | .trigger (.transferRequested q r) => some (.onTransferRequested q r)
  | .trigger (.transferCompleted success id) => some (.onTransferCompleted success id)
  | .timerFired .transferTimeout => some (.onTransferCompleted false "")
  | .trigger .conversationFinalized | .timerFired .finalizingTimeout =>
    some .onConversationFinalized
  | .trigger (.sessionClose r) => some (.onSessionClose r)
  | .timerFired .connectionTimeout => some (.onSessionClose "connection_timeout")
  | .timerFired .noSpeechTimeout => some (.onSessionClose "no_speech_timeout")
  | .timerFired .playbackTimeout => some (.onSessionClose "playback_timeout")
  | .timerFired .goodbyeTimeout => some (.onSessionClose "goodbye_timeout")
  | .timerFired .rtpInactivity => some (.onSessionClose "rtp_inactivity")
  | .timerFired .goodbyeConfirm => some (.onSpeechStarted f.pendingGoodbyeEnergyDb)
  | _ => none

/-- The machine an event finds: a fired timer is not active any more. -/
def found (f : CallFSM) : Event → CallFSM
  | .trigger _ => f
  | .timerFired _ => { f with activeTimer := kNoTimer }

end Event

/-- The machine of `x` has gone from `f` into the state `next`. -/
def Takes (f : CallFSM) (next : CallFsmState) (x : Exec) : Prop :=
  x.fsm.state = next ∧ x.fsm.visit = f.visit + 1

instance (f : CallFSM) (next : CallFsmState) (x : Exec) : Decidable (Takes f next x) :=
  inferInstanceAs (Decidable (_ ∧ _))

/-- The call is not about a timer or a change of state. -/
def isSemantic : HandlerCall → Bool
  | .scheduleTimer .. | .cancelTimer _ | .onStateChanged .. => false
  | _ => true

/-- The calls other than those about timers and changes of state. -/
def semanticCalls (cs : List HandlerCall) : List HandlerCall := cs.filter isSemantic

/-- The event and its handler agree in the machine `f`: the handler attached to
    a transition is called if and only if the transition is taken, with no
    other, and an event that is not valid changes nothing and calls nothing. -/
structure Agrees (cfg : CallFsmTimerConfig) (f : CallFSM) (n : FsmTimerId) (e : Event) : Prop where
  handler : ∀ next, e.target? f = some next → ∀ c, e.handler? f = some c →
    (c ∈ (e.run cfg ⟨f, n, []⟩).calls ↔ Takes f next (e.run cfg ⟨f, n, []⟩))
  only : ∀ c ∈ semanticCalls (e.run cfg ⟨f, n, []⟩).calls, e.handler? f = some c
  invalid : e.valid f = false → e.run cfg ⟨f, n, []⟩ = ⟨e.found f, n, []⟩

/-- The event does not start a transfer where none can start, and does not
    close an idle session. -/
def Meets (f : CallFSM) : Event → Prop
  | .trigger (.transferRequested ..) => f.isActive → isValid f.state .transferring
  | .trigger (.sessionClose _) | .timerFired .rtpInactivity => f.state ≠ .idle
  | _ => True

instance (f : CallFSM) (e : Event) : Decidable (Meets f e) := by
  unfold Meets
  split <;> infer_instance

/-! ## Events that are valid -/

section

variable {cfg : CallFsmTimerConfig} {f : CallFSM} {n : FsmTimerId}

theorem semanticCalls_append (cs ds : List HandlerCall) :
    semanticCalls (cs ++ ds) = semanticCalls cs ++ semanticCalls ds := List.filter_append ..

theorem semanticCalls_cancels (f : CallFSM) : semanticCalls f.cancels = [] := by
  unfold cancels
  split <;> rfl

/-- A legal transition calls no handler but those about timers and states. -/
theorem transition_takes {g : CallFSM} {next : CallFsmState} {trigger : String}
    {cs : List HandlerCall} (hv : isValid g.state next) (hg : g.visit = f.visit) :
    Takes f next (transition cfg next trigger ⟨g, n, cs⟩) ∧
      semanticCalls (transition cfg next trigger ⟨g, n, cs⟩).calls = semanticCalls cs := by
  have hm : Moves ⟨g, n, cs⟩ next trigger (transition cfg next trigger ⟨g, n, cs⟩) :=
    transition_moves hv
  refine ⟨⟨hm.state, hg ▸ hm.visit⟩, ?_⟩
  obtain ⟨-, -, -, hcs⟩ | ⟨_, _, -, -, -, -, hcs⟩ := hm.calls <;>
    rw [hcs, semanticCalls_append, semanticCalls_append, semanticCalls_cancels, List.append_nil] <;>
    exact List.append_nil _

/-- A handler called once the transition is taken. -/
theorem takes_call {next : CallFsmState} {x : Exec} {hs : List HandlerCall}
    (h : Takes f next x ∧ semanticCalls x.calls = hs) (c : HandlerCall) :
    Takes f next (call c x) ∧ semanticCalls (call c x).calls = hs ++ semanticCalls [c] := by
  refine ⟨h.1, ?_⟩
  rw [call_calls, semanticCalls_append, h.2]

theorem state_ne_of_isValid_closing (h : isValid f.state .closing = true) :
    f.state ≠ .closing ∧ f.state ≠ .closed ∧ f.state ≠ .idle := by
  refine ⟨?_, ?_, ?_⟩ <;> intro hs <;> rw [hs] at h <;> exact absurd h (by decide)

theorem isActive_of_isValid_transferring (h : isValid f.state .transferring = true) :
    f.isActive = true := by
  unfold isActive
  cases hs : f.state <;> rw [hs] at h <;> revert h <;> decide

theorem doSessionClose_takes {g : CallFSM} {reason : String} (h : isValid g.state .closing = true)
    (hg : g.visit = f.visit) :
    Takes f .closing (doSessionClose cfg reason ⟨g, n, []⟩) ∧
      semanticCalls (doSessionClose cfg reason ⟨g, n, []⟩).calls = [.onSessionClose reason] := by
  have hs := state_ne_of_isValid_closing h
  simp only [doSessionClose, hs.1, hs.2.1, or_self, if_false]
  exact transition_takes h hg

/-- An event that is valid takes the transition it asks for, and calls its
    handler with it, and no other. -/
theorem run_of_valid {e : Event} (h : e.valid f = true) {next : CallFsmState}
    (ht : e.target? f = some next) :
    Takes f next (e.run cfg ⟨f, n, []⟩) ∧
      semanticCalls (e.run cfg ⟨f, n, []⟩).calls = (e.handler? f).toList := by
  cases e with
  | trigger t =>
    cases t <;> simp only [Event.valid, decide_eq_true_eq] at h
    case sessionStart =>
      obtain rfl := Option.some.inj ht
      exact transition_takes (by rw [h]; rfl) rfl
    case serviceReady | textReady | firstAudioChunk | closeAcknowledged =>
      obtain rfl := Option.some.inj ht
      simp only [Event.run, run, onServiceReady, onTextReady, onFirstAudioChunk,
        onCloseAcknowledged, h, ne_eq, not_true, if_false]
      exact transition_takes (by rw [h]; rfl) rfl
    case earlyBargeIn =>
      obtain rfl := Option.some.inj ht
      rcases h with h | h <;>
        simp only [Event.run, run, onEarlyBargeIn, h, ne_eq, reduceCtorEq, not_true,
          not_false_eq_true, and_true, and_false, if_false] <;>
        exact transition_takes (by rw [h]; rfl) rfl
    case speechStarted e =>
      have hs : f.state = .listening := by
        refine h.resolve_right fun hs => ?_
        simp [Event.target?, hs] at ht
      obtain rfl : CallFsmState.recognizing = next := by simpa [Event.target?, hs] using ht
      simp only [Event.run, run, onSpeechStarted, Event.handler?, hs, reduceCtorEq, ne_eq, not_true,
        if_false]
      exact takes_call (transition_takes (by rw [hs]; rfl) rfl) _
    case speechEnded => cases ht
    case sttFinal text c =>
      obtain rfl := Option.some.inj ht
      simp only [Event.run, run, onSttFinal, h, ne_eq, not_true, if_false, Event.handler?]
      split
      · exact transition_takes (by rw [h]; rfl) rfl
      · exact takes_call (transition_takes (by rw [h]; rfl) rfl) _
    case playbackFinished i e o =>
      obtain rfl := Option.some.inj ht
      simp only [Event.run, run, onPlaybackFinished, h, ne_eq, not_true, if_false, Event.handler?]
      split
      · exact transition_takes (by rw [h]; rfl) rfl
      split
      · exact takes_call (transition_takes rfl rfl) _
      · exact takes_call (transition_takes (by rw [h]; rfl) rfl) _
    case cancelComplete =>
      obtain rfl := Option.some.inj ht
      simp only [Event.run, run, onCancelComplete, doCancelComplete, h, ne_eq, not_true, if_false]
      exact takes_call (transition_takes (by rw [h]; rfl) rfl) _
    case transferRequested q r =>
      obtain rfl := Option.some.inj ht
      have ha : f.isActive = true := isActive_of_isValid_transferring h
      simp only [Event.run, run, onTransferRequested, ha, Bool.not_true, Bool.false_eq_true,
        if_false]
      exact transition_takes h rfl
    case transferCompleted success id =>
      obtain rfl := Option.some.inj ht
      simp only [Event.run, run, onTransferCompleted, doTransferCompleted, h, ne_eq, not_true,
        if_false]
      split <;> exact transition_takes (by rw [h]; rfl) rfl
    case conversationFinalized =>
      obtain rfl := Option.some.inj ht
      simp only [Event.run, run, onConversationFinalized, doConversationFinalized, h, ne_eq,
        not_true, if_false]
      exact transition_takes (by rw [h]; rfl) rfl
    case sessionClose r =>
      obtain rfl := Option.some.inj ht
      exact doSessionClose_takes h rfl
  | timerFired type =>
    cases type <;> simp only [Event.valid, decide_eq_true_eq] at h <;>
      obtain rfl := Option.some.inj ht
    case connectionTimeout | noSpeechTimeout | playbackTimeout | goodbyeTimeout =>
      simp only [Event.run, onTimerFired, h, if_true]
      exact doSessionClose_takes rfl rfl
    case maxUtteranceTimeout | sttTimeout | llmTimeout | ttsTimeout | closeTimeout =>
      simp only [Event.run, onTimerFired, h, if_true]
      exact transition_takes rfl rfl
    case goodbyeConfirm =>
      obtain ⟨s, v, a, o, w, e⟩ := f
      obtain ⟨rfl, rfl⟩ : s = .waitingForHangup ∧ w = true := h
      let g : CallFSM := ⟨.waitingForHangup, v, kNoTimer, o, false, e⟩
      let x := transition cfg .recognizing "goodbye_cancelled" ⟨g, n, []⟩
      have hm : Moves ⟨g, n, []⟩ .recognizing "goodbye_cancelled" x := transition_moves rfl
      have hx : Takes g .recognizing x ∧ semanticCalls x.calls = [] := transition_takes rfl rfl
      have he : x.fsm.pendingGoodbyeEnergyDb = e := hm.energy
      obtain ⟨ht, hc⟩ := takes_call hx (.onSpeechStarted x.fsm.pendingGoodbyeEnergyDb)
      exact ⟨ht, hc.trans (by rw [he]; rfl)⟩
    case bargeInWindow =>
      simp only [Event.run, onTimerFired, doCancelComplete, h, if_true, ne_eq, not_true, if_false]
      exact takes_call (transition_takes rfl rfl) _
    case transferTimeout =>
      simp only [Event.run, onTimerFired, doTransferCompleted, h, if_true, ne_eq, not_true,
        if_false, Bool.false_eq_true]
      exact transition_takes rfl rfl
    case finalizingTimeout =>
      simp only [Event.run, onTimerFired, doConversationFinalized, h, if_true, ne_eq, not_true,
        if_false]
      exact transition_takes rfl rfl
    case rtpInactivity => exact doSessionClose_takes h rfl

/-- An event that is valid and asks for no transition stays in the state. -/
theorem run_of_target_none {e : Event} (h : e.valid f = true) (ht : e.target? f = none) :
    (e.run cfg ⟨f, n, []⟩).fsm.state = f.state ∧
      semanticCalls (e.run cfg ⟨f, n, []⟩).calls = (e.handler? f).toList := by
  cases e with
  | trigger t =>
    cases t <;> simp only [Event.target?, reduceCtorEq] at ht
    case speechStarted e =>
      have hs : f.state = .waitingForHangup := by
        by_contra hs
        simp [hs] at ht
      simp only [Event.run, run, onSpeechStarted, hs, if_true, Event.handler?]
      refine ⟨by simp [hs], ?_⟩
      rw [arm_calls, cancelActive_calls, semanticCalls_append, semanticCalls_append,
        semanticCalls_cancels]
      rfl
    case speechEnded d e =>
      simp only [Event.valid, decide_eq_true_eq] at h
      simp only [Event.run, run, notifySpeechEnded, Event.handler?]
      rcases h with hs | ⟨hs, ha⟩
      · simp only [hs, reduceCtorEq, false_and, ne_eq, not_true, if_false, if_true]
        refine ⟨by simp [hs], ?_⟩
        rw [call_calls, arm_calls, cancelActive_calls, semanticCalls_append, semanticCalls_append,
          semanticCalls_append, semanticCalls_cancels]
        rfl
      · simp only [hs, ha, and_self, if_true]
        refine ⟨by simp, ?_⟩
        rw [arm_calls, cancelActive_calls, semanticCalls_append, semanticCalls_append,
          semanticCalls_cancels]
        rfl
  | timerFired type => cases type <;> cases ht

/-- An event that is valid calls its handler, and no other. -/
theorem semanticCalls_run {e : Event} (h : e.valid f = true) :
    semanticCalls (e.run cfg ⟨f, n, []⟩).calls = (e.handler? f).toList := by
  cases ht : e.target? f with
  | none => exact (run_of_target_none h ht).2
  | some next => exact (run_of_valid h ht).2

/-! ## Events that are not valid -/

theorem doSessionClose_of_not_isValid {g : CallFSM} {reason : String} (hidle : g.state ≠ .idle)
    (h : isValid g.state .closing = false) :
    doSessionClose cfg reason ⟨g, n, []⟩ = ⟨g, n, []⟩ := by
  have hs : g.state = .closing ∨ g.state = .closed := by
    revert hidle h
    cases g.state <;> decide
  simp only [doSessionClose, hs, if_true]

/-- The close of an idle session runs its handler, and the transition is rejected. -/
theorem doSessionClose_of_idle {g : CallFSM} {reason : String} (h : g.state = .idle) :
    (doSessionClose cfg reason ⟨g, n, []⟩).calls = [.onSessionClose reason] := by
  simp only [doSessionClose, h, reduceCtorEq, or_self, if_false]
  rw [transition_of_not_isValid (by rw [call_fsm, h]; decide)]
  rfl

/-- An event that is not valid is ignored. -/
theorem run_of_not_valid {e : Event} (hm : Meets f e) (h : e.valid f = false) :
    e.run cfg ⟨f, n, []⟩ = ⟨e.found f, n, []⟩ := by
  cases e with
  | trigger t =>
    cases t <;> simp only [Event.valid, decide_eq_false_iff_not, not_or] at h
    case sessionStart =>
      refine transition_of_not_isValid ?_
      revert h
      cases hs : f.state <;> decide
    case transferRequested q r =>
      have ha : f.isActive = false := by
        by_contra ha
        exact absurd (hm (by simpa using ha)) (by simp [h])
      simp only [Event.run, run, onTransferRequested, ha, Bool.not_false, if_true]
      rfl
    case sessionClose r => exact doSessionClose_of_not_isValid hm h
    case speechEnded =>
      simp only [Event.run, run, notifySpeechEnded, h, ne_eq, not_false_eq_true, if_true, if_false]
      rfl
    all_goals
      simp only [Event.run, run, onServiceReady, onSpeechStarted, onSttFinal, onTextReady,
        onFirstAudioChunk, onPlaybackFinished, onCancelComplete, doCancelComplete, onEarlyBargeIn,
        onTransferCompleted, doTransferCompleted, onConversationFinalized,
        doConversationFinalized, onCloseAcknowledged, h, ne_eq, not_false_eq_true, and_self,
        if_true, if_false]
      rfl
  | timerFired type =>
    cases type <;> simp only [Event.valid, decide_eq_false_iff_not] at h
    case rtpInactivity => exact doSessionClose_of_not_isValid hm h
    all_goals
      simp only [Event.run, onTimerFired, h, if_false]
      rfl

/-! ## Agreement -/

/-- An event and its handler agree exactly if the event does not start a
    transfer where none can start, or close an idle session. -/
theorem agrees_iff_meets {e : Event} : Agrees cfg f n e ↔ Meets f e := by
  constructor
  · intro h
    by_contra hm
    cases e with
    | trigger t =>
      cases t <;> simp only [Meets, not_true, Classical.not_imp, not_not] at hm
      case transferRequested q r =>
        -- The handler is called before the transition is rejected.
        obtain ⟨ha, hv⟩ := hm
        have hx := h.invalid (by simpa [Event.valid] using hv)
        have hr : Event.run cfg (.trigger (.transferRequested q r)) ⟨f, n, []⟩ =
            ⟨f, n, [.onTransferRequested q r]⟩ := by
          simp only [Event.run, run, onTransferRequested, ha, Bool.not_true, Bool.false_eq_true,
            if_false]
          exact transition_of_not_isValid hv
        rw [hr] at hx
        exact absurd (congrArg Exec.calls hx) (by simp)
      case sessionClose r =>
        have hx := h.invalid (by simp only [Event.valid, hm]; decide)
        exact absurd (congrArg Exec.calls hx) (by
          simp only [Event.run, run, onSessionClose, doSessionClose_of_idle hm]; simp)
    | timerFired type =>
      cases type <;> simp only [Meets, not_true, ne_eq, not_not] at hm
      case rtpInactivity =>
        have hx := h.invalid (by simp only [Event.valid, hm]; decide)
        have hg : ({ f with activeTimer := kNoTimer } : CallFSM).state = .idle := hm
        exact absurd (congrArg Exec.calls hx) (by
          simp only [Event.run, onTimerFired, doSessionClose_of_idle hg]; simp)
  · intro hm
    cases hv : e.valid f with
    | true =>
      have hc : semanticCalls (e.run cfg ⟨f, n, []⟩).calls = (e.handler? f).toList :=
        semanticCalls_run hv
      refine ⟨fun next ht c hh => ?_, fun c hmem => ?_, fun h => absurd hv (by simp [h])⟩
      · have hmem : c ∈ semanticCalls (e.run cfg ⟨f, n, []⟩).calls := by simp [hc, hh]
        exact ⟨fun _ => (run_of_valid hv ht).1, fun _ => List.mem_of_mem_filter hmem⟩
      · rw [hc] at hmem
        simpa using hmem
    | false =>
      have hx : e.run cfg ⟨f, n, []⟩ = ⟨e.found f, n, []⟩ := run_of_not_valid hm hv
      have hvis : (e.found f).visit = f.visit := by cases e <;> rfl
      refine ⟨fun next _ c _ => ?_, fun c hmem => ?_, fun _ => hx⟩
      · rw [hx]
        refine ⟨fun h => absurd h List.not_mem_nil, fun h => ?_⟩
        exact absurd (hvis ▸ h.2) (by simp)
      · rw [hx] at hmem
        exact absurd hmem List.not_mem_nil

end

end CallFSM

/-! ## Runs -/

/-- The machine with the handler calls made so far. -/
structure LoggedFSM where
  fsm : CallFSM := {}
  nextId : FsmTimerId := 1
  log : List HandlerCall := []
  deriving DecidableEq, Repr

namespace LoggedFSM

open CallFSM (Event Agrees Meets)

def step (cfg : CallFsmTimerConfig) (s : LoggedFSM) (e : Event) : Option LoggedFSM :=
  let x := e.run cfg ⟨s.fsm, s.nextId, []⟩
  some ⟨x.fsm, x.nextId, s.log ++ x.calls⟩

/-- The events come in any order, and the timers fire at any time. -/
def system (cfg : CallFsmTimerConfig) : System LoggedFSM Event where
  init := {}
  step := step cfg

/-- The calls closing the session. -/
def closes (cs : List HandlerCall) : List HandlerCall :=
  cs.filter fun c => c matches .onSessionClose _

theorem closes_append (cs ds : List HandlerCall) : closes (cs ++ ds) = closes cs ++ closes ds :=
  List.filter_append ..

theorem closes_semanticCalls (cs : List HandlerCall) :
    closes (CallFSM.semanticCalls cs) = closes cs := by
  unfold closes CallFSM.semanticCalls
  rw [List.filter_filter]
  refine List.filter_congr fun c _ => ?_
  cases c <;> rfl

section

variable {cfg : CallFsmTimerConfig} {f : CallFSM} {n : FsmTimerId} {e : Event}

/-- An event closing the session asks for the transition into `closing`. -/
theorem target_of_handler_close {r : String} (hv : e.valid f = true)
    (h : e.handler? f = some (.onSessionClose r)) :
    e.target? f = some .closing ∧ f.state ≠ .closing ∧ f.state ≠ .closed := by
  cases e with
  | trigger t =>
    cases t <;> simp only [Event.handler?, reduceCtorEq, Option.ite_none_left_eq_some,
      Option.ite_none_right_eq_some, Option.some.injEq, and_false] at h
    case sessionClose => exact ⟨rfl, (CallFSM.state_ne_of_isValid_closing hv).imp_right And.left⟩
  | timerFired type =>
    cases type <;> simp only [Event.handler?, reduceCtorEq, Option.some.injEq] at h <;>
      simp only [Event.valid, decide_eq_true_eq] at hv
    case rtpInactivity => exact ⟨rfl, (CallFSM.state_ne_of_isValid_closing hv).imp_right And.left⟩
    all_goals exact ⟨rfl, by simp [hv]⟩

/-- An event requesting a transfer asks for the transition into `transferring`. -/
theorem target_of_handler_transfer {q r : String}
    (h : e.handler? f = some (.onTransferRequested q r)) :
    e.target? f = some .transferring := by
  cases e with
  | trigger t =>
    cases t <;> simp [Event.handler?] at h
    case transferRequested => rfl
  | timerFired type => cases type <;> simp [Event.handler?] at h

/-- In a closing or a closed machine, only the end of the close is valid. -/
theorem target_of_closing (hv : e.valid f = true) (hs : f.state = .closing ∨ f.state = .closed) :
    e.target? f = some .closed ∧ e.handler? f = none := by
  cases e with
  | trigger t =>
    cases t <;> rcases hs with hs | hs <;>
      simp [Event.valid, Event.target?, Event.handler?, CallFSM.isValid,
        CallFSM.kValidTransitions, hs] at hv ⊢
  | timerFired type =>
    cases type <;> rcases hs with hs | hs <;>
      simp [Event.valid, Event.target?, Event.handler?, CallFSM.isValid,
        CallFSM.kValidTransitions, hs] at hv ⊢

/-- The close of a session is called by entering `closing`, which is only left
    for `closed`. -/
theorem closes_run (hm : Meets f e) :
    closes (e.run cfg ⟨f, n, []⟩).calls = [] ∧
        (f.state = .closing ∨ f.state = .closed →
          (e.run cfg ⟨f, n, []⟩).fsm.state = .closing ∨
            (e.run cfg ⟨f, n, []⟩).fsm.state = .closed) ∨
      ∃ c, closes (e.run cfg ⟨f, n, []⟩).calls = [c] ∧
        ¬(f.state = .closing ∨ f.state = .closed) ∧
        (e.run cfg ⟨f, n, []⟩).fsm.state = .closing := by
  cases hv : e.valid f with
  | false =>
    have hs : (e.found f).state = f.state := by cases e <;> rfl
    rw [CallFSM.run_of_not_valid hm hv]
    exact .inl ⟨rfl, fun h => by rwa [hs]⟩
  | true =>
    rw [← closes_semanticCalls, CallFSM.semanticCalls_run hv]
    by_cases hh : ∃ r, e.handler? f = some (.onSessionClose r)
    · obtain ⟨r, hr⟩ := hh
      obtain ⟨ht, hcl⟩ := target_of_handler_close hv hr
      rw [hr]
      exact .inr ⟨_, rfl, not_or.2 hcl, (CallFSM.run_of_valid hv ht).1.1⟩
    · refine .inl ⟨?_, fun hs => ?_⟩
      · rw [closes, List.filter_eq_nil_iff]
        intro c hc hm
        cases c <;> simp at hc hm
        exact hh ⟨_, hc⟩
      · have ht := (target_of_closing hv hs).1
        exact .inr (CallFSM.run_of_valid hv ht).1.1

/-- The session has been closed at most once, and is closing since. -/
structure ClosedOnce (s : LoggedFSM) : Prop where
  once : (closes s.log).length ≤ 1
  closing : closes s.log ≠ [] → s.fsm.state = .closing ∨ s.fsm.state = .closed

theorem ClosedOnce.step {s s' : LoggedFSM} (h : ClosedOnce s) (hm : Meets s.fsm e)
    (hst : (system cfg).step s e = some s') : ClosedOnce s' := by
  obtain rfl := Option.some.inj hst
  obtain ⟨hc, hs⟩ | ⟨c, hc, hs, hs'⟩ := @closes_run cfg s.fsm s.nextId e hm
  · refine ⟨?_, fun hne => hs (h.closing ?_)⟩
    · rw [closes_append, hc, List.append_nil]
      exact h.once
    · rwa [closes_append, hc, List.append_nil] at hne
  · have hnil : closes s.log = [] := by
      by_contra hne
      exact hs (h.closing hne)
    refine ⟨?_, fun _ => .inl hs'⟩
    rw [closes_append, hnil, hc]
    exact Nat.le_refl 1

end

/-- Exactly the events that start no transfer where none can start, and close
    no idle session, agree with their handlers. In the runs of these events, the
    session is closed at most once, and closing or closed since, and a transfer
    is requested only by entering `transferring`. -/
theorem reachable_handlers (cfg : CallFsmTimerConfig) :
    (∀ f n e, Agrees cfg f n e ↔ Meets f e) ∧
      ∀ s, (system cfg).ReachableIf (fun s e => Meets s.fsm e) s →
        (closes s.log).length ≤ 1 ∧
        (closes s.log ≠ [] → s.fsm.state = .closing ∨ s.fsm.state = .closed) ∧
        ∀ e s' q r, Meets s.fsm e → (system cfg).step s e = some s' →
          .onTransferRequested q r ∈ (e.run cfg ⟨s.fsm, s.nextId, []⟩).calls →
          s'.fsm.state = .transferring := by
  refine ⟨fun f n e => CallFSM.agrees_iff_meets, fun s hs => ?_⟩
  have h : ClosedOnce s :=
    hs.invariant ⟨Nat.zero_le 1, fun h => absurd rfl h⟩ fun _ _ _ hI hm => hI.step hm
  refine ⟨h.once, h.closing, fun e s' q r hm hst hmem => ?_⟩
  obtain rfl := Option.some.inj hst
  have ha : Agrees cfg s.fsm s.nextId e := CallFSM.agrees_iff_meets.2 hm
  have hh : e.handler? s.fsm = some (.onTransferRequested q r) :=
    ha.only _ (List.mem_filter.2 ⟨hmem, rfl⟩)
  exact ((ha.handler _ (target_of_handler_transfer hh) _ hh).1 hmem).1

/-- In a connecting call, a transfer request runs its handler, and the
    transition is rejected. -/
theorem not_reachable_agrees :
    ¬∀ s, (system {}).Reachable s → ∀ e, Agrees {} s.fsm s.nextId e := by
  intro h
  let s : LoggedFSM := {
    fsm := { state := .connecting, visit := 1, activeTimer := 1 }
    nextId := 2
    log := [.scheduleTimer 1 .connectionTimeout 10000 1,
      .onStateChanged .idle .connecting "session_start"] }
  have hexec : (system {}).exec {} [.trigger .sessionStart] = some s := by decide
  have hs : (system {}).Reachable s := System.Reachable.exec .init hexec
  have hm : Meets s.fsm (.trigger (.transferRequested "sales" "")) :=
    CallFSM.agrees_iff_meets.1 (h s hs _)
  exact absurd hm (by decide)

/-- A transfer is requested in a listening call, and the session closed in the
    middle of it. -/
theorem reachable_handlers_close :
    ∃ s, (system {}).Reachable s ∧ s.fsm.state = .closing ∧ (closes s.log).length = 1 ∧
      (closes s.log).length ≤ 1 := by
  let guard (s : LoggedFSM) (e : Event) : Prop := Meets s.fsm e
  have h₁ : (system {}).ReachableIf guard _ := .step (l := .trigger .sessionStart) .init trivial rfl
  have h₂ : (system {}).ReachableIf guard _ := .step (l := .trigger .serviceReady) h₁ trivial rfl
  have h₃ : (system {}).ReachableIf guard _ :=
    .step (l := .trigger (.transferRequested "sales" "")) h₂ (fun _ => rfl) rfl
  have h₄ : (system {}).ReachableIf guard _ :=
    .step (l := .trigger (.sessionClose "terminated")) h₃ (by decide) rfl
  exact ⟨_, h₄.reachable, rfl, rfl, ((reachable_handlers {}).2 _ h₄).1⟩

end LoggedFSM

end Yuviz.Gateway
