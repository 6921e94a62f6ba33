import Yuviz.Gateway.CallFSM.Handlers
import Yuviz.Gateway.Telephony.Coordinators

/-!
# The session of a call

The control thread of a `CallSession` processes the items that the other threads
post to its queue: it drives the state machine of the call, and its handlers
send messages to the Conversation Service, cancel the playback and start
transfers. The fields are those of the control thread; an `Exec` is a session in
the middle of an item, with the effects so far, oldest first.

* The handlers are called where the machine calls them. The machine calls
  `on_state_changed` last in a transition, so that the triggers of the replay of
  a barge-in (`nested`) find the machine the transition leaves. These triggers
  do not complete a barge-in themselves: there is one level of them.
* The timers of the machine are the subject of `CallFSM.Timers` and
  `CallFSM.ControlQueue`. Here their calls have no effect, and a timer may fire
  at any time.
* Log, metrics and the event bus are left out.
-/

namespace Yuviz.Gateway

/-- A frame of the audio of the caller. -/
structure AudioFrame where
  sequenceNum : ℕ
  deriving DecidableEq, Repr

/-- The request of the Conversation Service to transfer the call. -/
structure TransferRequest where
  transferType : String
  destination : String
  reason : String
  transferId : String
  callerId : String
  waitingExperience : String
  deriving DecidableEq, Repr

/-- An item of the control queue. The session does not read the turn of the
    conversation that an item belongs to. -/
inductive SessionItem
  | sessionStart
  | serviceReady
  | sttResult (text : String) (confidence : Int)
  | ttsStarted (turn : ℕ)
  | firstAudioChunk (turn : ℕ)
  | cancelAck
  | endCall (turn : ℕ) (gracePeriodMs : Int)
  | transferRequest (request : TransferRequest)
  /-- What the handler of a transfer request posts. -/
  | transferBody (destination reason : String)
  /-- What the callback of a coordinator posts. The attempt is not read. -/
  | transferOutcome (attempt : ℕ) (success : Bool) (destination detail : String)
  | conversationFinalized
  | terminate (reason : String)
  | audioFrame (frame : AudioFrame)
  | speechStarted (energyDb : Int)
  | speechEnded (durationMs : ℕ) (energyDb : Int)
  | playbackFinished (turn : ℕ)
  | playbackCancelled
  | timerFired (type : FsmTimerType)
  deriving DecidableEq, Repr

/-- What the processing of an item does outside the fields of the session. -/
inductive SessionEffect
  | sendAudio (frame : AudioFrame)
  | sendSpeechEnded (durationMs : ℕ) (energyDb : Int)
  | sendPlaybackFinished (interrupted : Bool)
  | cancelGeneration
  | sendTransferInitiated (type destination reason transferId : String)
  | sendTransferCompleted (destination transferId : String)
  | sendTransferFailed (destination detail transferId : String)
  | closeSession
  | cancelPlayback
  | closeConnection
  | hangup (callId reason : String)
  | post (item : SessionItem)
  /-- `start` is called on the coordinator of the attempt, if there is one. -/
  | startTransfer (type : Option TransferType) (ctx : TransferCoordinatorContext)
  | shutdownTransfer (type : TransferType)
  deriving DecidableEq, Repr

/-- How many frames a barge-in keeps. -/
def kMaxBargeInFrames : ℕ := 500

/-- How many frames the window before an utterance keeps. -/
def kPrerollFrames : ℕ := 25

/-- The fields of the control thread. -/
structure CallSession where
  callId : String := ""
  callerDid : String := ""
  fsm : CallFSM := {}
  nextFsmTimerId : FsmTimerId := 1
  bargeInBuffer : List AudioFrame := []
  preroll : List AudioFrame := []
  bargeInCapture : Bool := false
  bargeInEnergyDb : Int := 0
  pendingSpeechEnded : Bool := false
  pendingSeDurationMs : ℕ := 0
  pendingSeEnergyDb : Int := 0
  pendingEndCall : Bool := false
  pendingGoodbyeTimeout : Int := 0
  pendingTransferDetail : String := ""
  activeTransferId : String := ""
  activeTransferDestination : String := ""
  activeTransferType : String := ""
  activeCallerId : String := ""
  activeWaitingExperience : String := ""
  activeTransfer : Option TransferType := none
  sipLegHandedOff : Bool := false
  deriving DecidableEq, Repr

namespace CallSession

/-- The session in the middle of an item. -/
structure Exec where
  session : CallSession
  effects : List SessionEffect := []
  deriving DecidableEq, Repr

def emit (e : SessionEffect) (x : Exec) : Exec := { x with effects := x.effects ++ [e] }

def sendAudio (frames : List AudioFrame) (x : Exec) : Exec :=
  { x with effects := x.effects ++ frames.map .sendAudio }

/-! ## The handlers of the machine -/

/-- The outcome of a transfer. -/
def onTransferCompleted (success : Bool) (destination : String) (x : Exec) : Exec :=
  -- The timeout has no destination of its own.
  let destination := if destination = "" then x.session.activeTransferDestination else destination
  let x := match x.session.activeTransfer with
    | some type => { emit (.shutdownTransfer type) x with session.activeTransfer := none }
    | none => x
  if success then emit (.sendTransferCompleted destination x.session.activeTransferId) x
  else
    emit (.sendTransferFailed destination x.session.pendingTransferDetail x.session.activeTransferId) x

def onSessionClose (reason : String) (x : Exec) : Exec :=
  let x := emit .closeConnection x
  if x.session.sipLegHandedOff then x else emit (.hangup x.session.callId reason) x

section

variable (nested : CallFSM.Event → Exec → Exec)

/-- The replay of what was captured during a barge-in. -/
def replay (x : Exec) : Exec :=
  let x := { x with session.bargeInCapture := false }
  let x :=
    if x.session.bargeInBuffer ≠ [] ∨ !x.session.pendingSpeechEnded then
      let x := nested (.trigger (.speechStarted x.session.bargeInEnergyDb)) x
      let x := sendAudio x.session.bargeInBuffer x
      if x.session.pendingSpeechEnded then
        nested (.trigger (.speechEnded x.session.pendingSeDurationMs x.session.pendingSeEnergyDb)) x
      else x
    else x
  { x with session.bargeInBuffer := [], session.pendingSpeechEnded := false }

def onFsmStateChanged (source target : CallFsmState) (x : Exec) : Exec :=
  let x :=
    if target = .recognizing ∧ x.session.preroll ≠ [] then
      { sendAudio x.session.preroll x with session.preroll := [] }
    else x
  if source = .bargeIn ∧ target = .listening ∧ x.session.bargeInCapture then replay nested x else x

/-- The handlers. Those of the start of an utterance and of its transcript only log. -/
def handle (x : Exec) : HandlerCall → Exec
  | .scheduleTimer .. | .cancelTimer _ | .onSpeechStarted _ | .onSttFinal .. => x
  | .onStateChanged source target _ => onFsmStateChanged nested source target x
  | .onSpeechEnded durationMs energyDb => emit (.sendSpeechEnded durationMs energyDb) x
  | .onPlaybackFinished interrupted => emit (.sendPlaybackFinished interrupted) x
  | .onTransferRequested destination reason => emit (.post (.transferBody destination reason)) x
  | .onTransferCompleted success destination => onTransferCompleted success destination x
  | .onConversationFinalized => emit .closeSession x
  | .onSessionClose reason => onSessionClose reason x

variable (cfg : CallFsmTimerConfig)

/-- An event of the machine, its handlers being called. -/
def fireWith (e : CallFSM.Event) (x : Exec) : Exec :=
  let y := e.run cfg ⟨x.session.fsm, x.session.nextFsmTimerId, []⟩
  y.calls.foldl (handle nested) { x with session.fsm := y.fsm, session.nextFsmTimerId := y.nextId }

end

section

variable (cfg : CallFsmTimerConfig)

/-- An event of the replay. -/
def fireNested (e : CallFSM.Event) (x : Exec) : Exec := fireWith (fun _ x => x) cfg e x

def fire (e : CallFSM.Event) (x : Exec) : Exec := fireWith (fireNested cfg) cfg e x

/-- A trigger of the machine. -/
def trigger (t : CallFSM.Trigger) (x : Exec) : Exec := fire cfg (.trigger t) x

/-! ## The items -/

/-- The capture of a barge-in starts with the frames before it. -/
def startCapture (energyDb : Int) (x : Exec) : Exec :=
  { x with
    session.bargeInCapture := true
    session.bargeInBuffer := x.session.preroll
    session.preroll := []
    session.bargeInEnergyDb := energyDb
    session.pendingSpeechEnded := false }

def onSpeechStarted (playing : Bool) (energyDb : Int) (x : Exec) : Exec :=
  match x.session.fsm.state with
  | .speaking => emit .cancelGeneration (emit .cancelPlayback (startCapture energyDb x))
  | .thinking | .synthesizing =>
    let x := startCapture energyDb x
    let x := if playing then emit .cancelPlayback x else x
    trigger cfg .earlyBargeIn (emit .cancelGeneration x)
  | _ =>
    let x := if playing then emit .cancelPlayback x else x
    trigger cfg (.speechStarted energyDb) x

def onSpeechEnded (durationMs : ℕ) (energyDb : Int) (x : Exec) : Exec :=
  if x.session.bargeInCapture then
    { x with
      session.pendingSpeechEnded := true
      session.pendingSeDurationMs := durationMs
      session.pendingSeEnergyDb := energyDb }
  else trigger cfg (.speechEnded durationMs energyDb) x

def onAudioFrame (frame : AudioFrame) (x : Exec) : Exec :=
  if x.session.fsm.state = .recognizing then emit (.sendAudio frame) x
  else if x.session.bargeInCapture then
    if x.session.bargeInBuffer.length < kMaxBargeInFrames then
      { x with session.bargeInBuffer := x.session.bargeInBuffer ++ [frame] }
    else x
  else
    let preroll := x.session.preroll ++ [frame]
    { x with session.preroll := if preroll.length > kPrerollFrames then preroll.tail else preroll }

def onPlaybackFinished (x : Exec) : Exec :=
  let endCall := x.session.pendingEndCall
  let timeout := x.session.pendingGoodbyeTimeout
  let x := { x with session.pendingEndCall := false, session.pendingGoodbyeTimeout := 0 }
  trigger cfg (.playbackFinished false endCall timeout) x

def onPlaybackCancelled (x : Exec) : Exec :=
  let x := { x with session.pendingEndCall := false, session.pendingGoodbyeTimeout := 0 }
  trigger cfg (.playbackFinished true false 0) x

/-- A transfer request takes the fields of the attempt before the machine is
    asked whether a transfer can start. -/
def onTransferRequested (r : TransferRequest) (x : Exec) : Exec :=
  let x := { x with
    session.activeTransferId := r.transferId
    session.activeTransferDestination := r.destination
    session.activeTransferType := r.transferType
    session.activeCallerId := if r.callerId = "" then x.session.callerDid else r.callerId
    session.activeWaitingExperience := r.waitingExperience
    session.activeTransfer := some (if r.transferType = "warm" then .warm else .cold) }
  trigger cfg (.transferRequested r.destination r.reason) x

/-- The posted body of the handler of a transfer request. -/
def onTransferBody (destination reason : String) (x : Exec) : Exec :=
  let s := x.session
  let x := emit (.sendTransferInitiated s.activeTransferType destination reason s.activeTransferId) x
  if destination = "" then
    trigger cfg (.transferCompleted false destination)
      { x with session.pendingTransferDetail := "empty_destination" }
  else
    emit (.startTransfer s.activeTransfer
        ⟨s.callId, destination, reason, s.activeTransferId, s.activeCallerId,
          s.activeWaitingExperience⟩)
      { x with session.pendingTransferDetail := "transfer_timeout" }

def onTransferOutcome (success : Bool) (destination detail : String) (x : Exec) : Exec :=
  trigger cfg (.transferCompleted success destination)
    { x with session.pendingTransferDetail := detail }

def terminate (reason : String) (x : Exec) : Exec :=
  if x.session.fsm.isTerminal then x else trigger cfg (.sessionClose reason) x

/-- The item is processed, while the playback is active or not. -/
def process (playing : Bool) (item : SessionItem) (x : Exec) : Exec :=
  match item with
  | .sessionStart => trigger cfg .sessionStart x
  | .serviceReady => trigger cfg .serviceReady x
  | .sttResult text confidence => trigger cfg (.sttFinal text confidence) x
  | .ttsStarted _ => trigger cfg .textReady x
  | .firstAudioChunk _ => trigger cfg .firstAudioChunk x
  | .cancelAck => trigger cfg .cancelComplete x
  | .endCall _ gracePeriodMs =>
    { x with session.pendingEndCall := true, session.pendingGoodbyeTimeout := gracePeriodMs }
  | .transferRequest request => onTransferRequested cfg request x
  | .transferBody destination reason => onTransferBody cfg destination reason x
  | .transferOutcome _ success destination detail => onTransferOutcome cfg success destination detail x
  | .conversationFinalized => trigger cfg .conversationFinalized x
  | .terminate reason => terminate cfg reason x
  | .audioFrame frame => onAudioFrame frame x
  | .speechStarted energyDb => onSpeechStarted cfg playing energyDb x
  | .speechEnded durationMs energyDb => onSpeechEnded cfg durationMs energyDb x
  | .playbackFinished _ => onPlaybackFinished cfg x
  | .playbackCancelled => onPlaybackCancelled cfg x
  | .timerFired type => fire cfg (.timerFired type) x

end

end CallSession

end Yuviz.Gateway
