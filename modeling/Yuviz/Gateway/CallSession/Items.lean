import Yuviz.Gateway.CallSession.Events

/-!
# The items of a session

The processing of an item prepares the fields of the session (`prepare`), and
then drives the machine by at most one event (`SessionItem.event?`). What it
leaves and does is read off the event: `process_of_not_completes`, unless it
completes a barge-in, `process_of_completes`.
-/

namespace Yuviz.Gateway

/-- The event of the machine that an item drives, if any. -/
def SessionItem.event? (s : CallSession) : SessionItem → Option CallFSM.Event
  | .sessionStart => some (.trigger .sessionStart)
  | .serviceReady => some (.trigger .serviceReady)
  | .sttResult text confidence => some (.trigger (.sttFinal text confidence))
  | .ttsStarted _ => some (.trigger .textReady)
  | .firstAudioChunk _ => some (.trigger .firstAudioChunk)
  | .cancelAck => some (.trigger .cancelComplete)
  | .endCall .. | .audioFrame _ => none
  | .transferRequest r => some (.trigger (.transferRequested r.destination r.reason))
  | .transferBody destination _ =>
    if destination = "" then some (.trigger (.transferCompleted false destination)) else none
  | .transferOutcome _ success destination _ =>
    some (.trigger (.transferCompleted success destination))
  | .conversationFinalized => some (.trigger .conversationFinalized)
  | .terminate reason => if s.fsm.isTerminal then none else some (.trigger (.sessionClose reason))
  | .speechStarted energyDb =>
    match s.fsm.state with
    | .speaking => none
    | .thinking | .synthesizing => some (.trigger .earlyBargeIn)
    | _ => some (.trigger (.speechStarted energyDb))
  | .speechEnded durationMs energyDb =>
    if s.bargeInCapture then none else some (.trigger (.speechEnded durationMs energyDb))
  | .playbackFinished _ =>
    some (.trigger (.playbackFinished false s.pendingEndCall s.pendingGoodbyeTimeout))
  | .playbackCancelled => some (.trigger (.playbackFinished true false 0))
  | .timerFired type => some (.timerFired type)

namespace CallSession

/-- What an item does before its event. -/
def prepare (playing : Bool) (item : SessionItem) (x : Exec) : Exec :=
  match item with
  | .endCall _ gracePeriodMs =>
    { x with session.pendingEndCall := true, session.pendingGoodbyeTimeout := gracePeriodMs }
  | .playbackFinished _ | .playbackCancelled =>
    { x with session.pendingEndCall := false, session.pendingGoodbyeTimeout := 0 }
  | .transferRequest r =>
    { x with
      session.activeTransferId := r.transferId
      session.activeTransferDestination := r.destination
      session.activeTransferType := r.transferType
      session.activeCallerId := if r.callerId = "" then x.session.callerDid else r.callerId
      session.activeWaitingExperience := r.waitingExperience
      session.activeTransfer := some (if r.transferType = "warm" then .warm else .cold) }
  | .transferBody destination reason =>
    let s := x.session
    let x :=
      emit (.sendTransferInitiated s.activeTransferType destination reason s.activeTransferId) x
    if destination = "" then { x with session.pendingTransferDetail := "empty_destination" }
    else
      emit (.startTransfer s.activeTransfer
          ⟨s.callId, destination, reason, s.activeTransferId, s.activeCallerId,
            s.activeWaitingExperience⟩)
        { x with session.pendingTransferDetail := "transfer_timeout" }
  | .transferOutcome _ _ _ detail => { x with session.pendingTransferDetail := detail }
  | .audioFrame frame => onAudioFrame frame x
  | .speechStarted energyDb =>
    match x.session.fsm.state with
    | .speaking => emit .cancelGeneration (emit .cancelPlayback (startCapture energyDb x))
    | .thinking | .synthesizing =>
      let x := startCapture energyDb x
      emit .cancelGeneration (if playing then emit .cancelPlayback x else x)
    | _ => if playing then emit .cancelPlayback x else x
  | .speechEnded durationMs energyDb =>
    if x.session.bargeInCapture then
      { x with
        session.pendingSpeechEnded := true
        session.pendingSeDurationMs := durationMs
        session.pendingSeEnergyDb := energyDb }
    else x
  | _ => x

variable {cfg : CallFsmTimerConfig} {playing : Bool} {item : SessionItem} {x : Exec}

/-- An item prepares the session, and then drives the machine. -/
theorem process_eq : process cfg playing item x =
    match item.event? x.session with
    | some e => fire cfg e (prepare playing item x)
    | none => prepare playing item x := by
  cases item
  case transferBody destination reason =>
    by_cases hd : destination = ""
    · simp only [process, onTransferBody, SessionItem.event?, prepare, hd, if_true]
      rfl
    · simp only [process, onTransferBody, SessionItem.event?, prepare, hd, if_false]
  case terminate reason =>
    by_cases ht : x.session.fsm.isTerminal <;>
      simp [process, terminate, SessionItem.event?, prepare, ht, trigger]
  case speechStarted energyDb =>
    simp only [process, onSpeechStarted, SessionItem.event?, prepare]
    cases x.session.fsm.state <;> rfl
  case speechEnded durationMs energyDb =>
    by_cases hc : x.session.bargeInCapture <;>
      simp [process, onSpeechEnded, SessionItem.event?, prepare, hc, trigger]
  all_goals rfl

/-- The machine is only driven by the event. -/
theorem prepare_fsm : (prepare playing item x).session.fsm = x.session.fsm := by
  cases item
  case audioFrame frame =>
    simp only [prepare, onAudioFrame]
    split_ifs <;> rfl
  case transferBody destination reason =>
    simp only [prepare]
    split_ifs <;> rfl
  case speechStarted energyDb =>
    cases playing <;> simp only [prepare] <;> split <;> rfl
  case speechEnded =>
    simp only [prepare]
    split_ifs <;> rfl
  all_goals rfl

/-! ## What an item comes down to -/

/-- The calls of the handlers of an item. -/
def calls (s : CallSession) (item : SessionItem) : List HandlerCall :=
  (item.event? s).elim [] fun e => e.outline s.fsm

/-- The state an item leads to, but for a replay. -/
def nextState (s : CallSession) (item : SessionItem) : CallFsmState :=
  (item.event? s).elim s.fsm.state fun e => e.next s.fsm

/-- The item completes a barge-in that has been captured. -/
def Completes (s : CallSession) (item : SessionItem) : Prop :=
  s.fsm.state = .bargeIn ∧ s.bargeInCapture = true ∧
    (item = .cancelAck ∨ item = .timerFired .bargeInWindow)

variable {s : CallSession}

theorem calls_of_event {e : CallFSM.Event} (h : item.event? s = some e) :
    calls s item = e.outline s.fsm := by
  simp [calls, h]

theorem calls_of_no_event (h : item.event? s = none) : calls s item = [] := by
  simp [calls, h]

theorem nextState_of_event {e : CallFSM.Event} (h : item.event? s = some e) :
    nextState s item = e.next s.fsm := by
  simp [nextState, h]

theorem nextState_of_no_event (h : item.event? s = none) : nextState s item = s.fsm.state := by
  simp [nextState, h]

/-- The events that lead from `bargeIn` to `listening`. -/
theorem eq_of_completesBargeIn {e : CallFSM.Event} (h : CompletesBargeIn s e) :
    e = .trigger .cancelComplete ∨ e = .timerFired .bargeInWindow := by
  obtain ⟨hs, hv, ht, -⟩ := h
  rcases e with t | type
  · cases t <;> simp_all [CallFSM.Event.valid, CallFSM.Event.target?]
  · cases type <;> simp_all [CallFSM.Event.valid, CallFSM.Event.target?]

theorem event_of_completes (playing : Bool) (h : Completes x.session item) :
    ∃ e, item.event? x.session = some e ∧ CompletesBargeIn x.session e ∧
      prepare playing item x = x := by
  obtain ⟨hs, hc, rfl | rfl⟩ := h
  · exact ⟨_, rfl, by simp [CompletesBargeIn, CallFSM.Event.valid, CallFSM.Event.target?, hs, hc],
      rfl⟩
  · exact ⟨_, rfl, by simp [CompletesBargeIn, CallFSM.Event.valid, CallFSM.Event.target?, hs, hc],
      rfl⟩

theorem not_completesBargeIn {e : CallFSM.Event} (he : item.event? x.session = some e)
    (h : ¬Completes x.session item) : ¬CompletesBargeIn (prepare playing item x).session e := by
  intro hc
  have hs : x.session.fsm.state = .bargeIn := by
    have hfsm : (prepare playing item x).session.fsm = x.session.fsm := prepare_fsm
    rw [← hfsm]
    exact hc.1
  have hitem : item = .cancelAck ∨ item = .timerFired .bargeInWindow := by
    rcases eq_of_completesBargeIn hc with rfl | rfl <;> revert he <;> cases item <;>
      simp [SessionItem.event?, hs]
  refine h ⟨hs, ?_, hitem⟩
  rcases hitem with rfl | rfl <;> exact hc.2.2.2

/-- What an item does that does not complete a barge-in. -/
theorem process_of_not_completes (cfg : CallFsmTimerConfig) (playing : Bool)
    (h : ¬Completes x.session item) :
    (∃ f n, (process cfg playing item x).session = { (prepare playing item x).session with
        fsm := f
        nextFsmTimerId := n
        preroll := if (calls x.session item).any isUtterance then []
          else (prepare playing item x).session.preroll
        activeTransfer := if (calls x.session item).any isOutcome then none
          else (prepare playing item x).session.activeTransfer } ∧
        f.state = nextState x.session item) ∧
      (process cfg playing item x).effects = (prepare playing item x).effects ++
        (calls x.session item).flatMap (callEffects (prepare playing item x).session) := by
  rw [process_eq]
  cases he : item.event? x.session with
  | none =>
    rw [calls_of_no_event he, nextState_of_no_event he]
    refine ⟨⟨_, _, rfl, congrArg CallFSM.state prepare_fsm⟩, by simp⟩
  | some e =>
    have hn : ¬CompletesBargeIn (prepare playing item x).session e := not_completesBargeIn he h
    have hf : (prepare playing item x).session.fsm = x.session.fsm := prepare_fsm
    rw [calls_of_event he, nextState_of_event he, ← hf]
    let y : CallSession := ran cfg e (prepare playing item x).session
    refine ⟨⟨y.fsm, y.nextFsmTimerId, ?_, ran_state e _⟩, fireWith_effects hn⟩
    rw [any_isUtterance]
    simp only [decide_eq_true_eq]
    exact fireWith_session hn

/-- What an item does that completes a barge-in. -/
theorem process_of_completes (cfg : CallFsmTimerConfig) (playing : Bool)
    (h : Completes x.session item) :
    (∃ f n, (process cfg playing item x).session = { x.session with
        fsm := f
        nextFsmTimerId := n
        preroll := if HasReplay x.session then [] else x.session.preroll
        bargeInCapture := false
        bargeInBuffer := []
        pendingSpeechEnded := false } ∧
        f.state = if HasReplay x.session then .recognizing else .listening) ∧
      (process cfg playing item x).effects = x.effects ++
        (if HasReplay x.session then
          (x.session.preroll ++ x.session.bargeInBuffer).map .sendAudio ++
            if x.session.pendingSpeechEnded then
              [.sendSpeechEnded x.session.pendingSeDurationMs x.session.pendingSeEnergyDb]
            else []
        else []) ++ [.sendPlaybackFinished true] := by
  obtain ⟨e, he, hc, hp⟩ := event_of_completes playing h
  rw [process_eq, he, hp]
  exact fire_of_completes hc

end CallSession

end Yuviz.Gateway
