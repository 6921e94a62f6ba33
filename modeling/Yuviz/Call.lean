import Yuviz.Conversation.Servicer
import Yuviz.Gateway.CallSession.Threads

/-!
# A call

The session of the gateway and the servicer of the Conversation Service, with a
channel each way.

* What the control thread of the session sends for an item goes up, in order;
  the reader of the service puts it in the queue of the servicer.
* What the servicer sends goes down, in order; the reader of the transport posts
  it to the session, chunk by chunk of speech.

The channels lose nothing. The gateway ends its side of the stream when it
closes the AI session, and the service reports an exception before it stops.
The samples of the frames are a parameter, which the machines do not depend on.
-/

namespace Yuviz

structure Call where
  gateway : Gateway.SessionThreads
  service : Conversation.Servicer := {}
  /-- What is on its way to the service; `none` is the end of the stream. -/
  up : List (Option Conversation.GatewayMessage) := []
  /-- What is on its way to the gateway, but for the notice that the service is
      ready, which goes first. -/
  down : List Conversation.ServiceMessage := []
  /-- The gateway has received this notice. -/
  ready : Bool := false
  /-- The gateway has ended its side of the stream. -/
  ended : Bool := false

namespace Call

open Gateway (SessionThreads SessionEffect SessionItem CallFsmTimerConfig)
open Conversation (Servicer ServiceMessage Bytes)

/-- What happens: a step of the session or of the servicer, or one of the readers
    takes a message. -/
inductive Label
  | gateway (l : SessionThreads.Label)
  | receive
  | arrive
  | service (l : Servicer.Label)
  deriving DecidableEq, Repr

/-! ## To the service -/

/-- The message an effect of the session sends. -/
def wire? (samples : Gateway.AudioFrame → Bytes) :
    SessionEffect → Option Conversation.GatewayMessage
  | .sendAudio frame => some (.audioChunk (samples frame))
  | .sendSpeechEnded durationMs energyDb => some (.speechEnded durationMs energyDb)
  | .sendPlaybackFinished interrupted => some (.playbackFinished interrupted)
  | .cancelGeneration => some (.cancelGeneration "")
  | .sendTransferInitiated type destination reason transferId =>
    some (.transferInitiated type destination reason transferId)
  | .sendTransferCompleted destination transferId =>
    some (.transferCompleted destination transferId)
  | .sendTransferFailed destination detail transferId =>
    some (.transferFailed destination detail transferId)
  | _ => none

/-- An effect of the session; a stream that is ended takes no more. -/
def send (samples : Gateway.AudioFrame → Bytes) (s : Call) (e : SessionEffect) : Call :=
  if s.ended then s
  else if e = .closeSession then { s with ended := true, up := s.up ++ [none] }
  else { s with up := s.up ++ ((wire? samples e).map some).toList }

/-! ## To the gateway -/

def transferType : Conversation.TransferType → String
  | .warm => "warm"
  | .cold => "cold"
  | .none => "none"

def transferRequest (tr : Conversation.TransferRequest) : Gateway.TransferRequest where
  transferType := transferType tr.transferType
  destination := tr.destination
  reason := tr.reason
  transferId := tr.transferId
  callerId := tr.callerId
  waitingExperience := tr.waitingExperience

/-- How many frames of 20 ms follow the first one of a chunk. -/
def more (payload : Bytes) : ℕ := (payload.length - 1) / 640

/-- What the reader of the transport does with a message, if anything. -/
def incoming? (s : SessionThreads) : ServiceMessage → Option SessionThreads.Label
  | .sttResult text confidence => some (.message (.sttResult text confidence))
  | .ttsStarted => some (.message (.ttsStarted (s.turns + 1)))
  | .ttsChunk payload isFinal => some (.ttsChunk s.turns (more payload) isFinal)
  | .cancelAck _ => some (.message .cancelAck)
  | .endCall gracePeriodMs => some (.message (.endCall s.turns gracePeriodMs))
  | .transferRequest tr => some (.message (.transferRequest (transferRequest tr)))
  | .conversationFinalized => some (.message .conversationFinalized)
  | .error => some (.event (.terminate "transport_error"))
  | .agentText _ | .workflowNodeChanged _ => none

/-- The message an output of the servicer sends. -/
def sent? : Conversation.Output → Option ServiceMessage
  | .send m => some m
  | .call _ => none

/-! ## The system -/

variable (cfg : CallFsmTimerConfig) (maxFrames : ℕ) (samples : Gateway.AudioFrame → Bytes)

/-- A step of the session, other than those of its reader. -/
def gatewayStep (l : SessionThreads.Label) (s : Call) : Option Call :=
  match l with
  | .message _ | .ttsChunk .. => none
  | .control =>
    (SessionThreads.step cfg maxFrames s.gateway .control).map fun t =>
      (s.gateway.queue.head?.toList.flatMap fun item =>
        (SessionThreads.processed cfg s.gateway item).effects).foldl (send samples)
          { s with gateway := t }
  | l => (SessionThreads.step cfg maxFrames s.gateway l).map fun t => { s with gateway := t }

/-- The reader of the transport takes a message, when it is through with the last one. -/
def receive (s : Call) : Option Call :=
  if s.gateway.incoming ≠ [] then none
  else if !s.ready then
    (SessionThreads.step cfg maxFrames s.gateway (.message .serviceReady)).map fun t =>
      { s with gateway := t, ready := true }
  else
    match s.down with
    | m :: down =>
      match incoming? s.gateway m with
      | some l =>
        (SessionThreads.step cfg maxFrames s.gateway l).map fun t =>
          { s with gateway := t, down := down }
      | none => some { s with down := down }
    | [] => none

/-- The reader of the service takes a message. -/
def arrive (s : Call) : Option Call :=
  match s.up with
  | m :: up => (s.service.step (.arrive m)).map fun x => { s with service := x.1, up := up }
  | [] => none

/-- A step of the servicer, other than those of its reader. -/
def serviceStep (l : Servicer.Label) (s : Call) : Option Call :=
  match l with
  | .arrive _ => none
  | l => (s.service.step l).map fun x =>
    { s with service := x.1, down := s.down ++ x.2.filterMap sent? }

def step (s : Call) : Label → Option Call
  | .gateway l => gatewayStep cfg maxFrames samples l s
  | .receive => receive cfg maxFrames s
  | .arrive => arrive s
  | .service l => serviceStep l s

/-- The call `callId` from `callerDid`. -/
def system (callId callerDid : String) : System Call Label where
  init :=
    { gateway := (SessionThreads.system cfg maxFrames callId callerDid).init }
  step := step cfg maxFrames samples

end Call

end Yuviz
