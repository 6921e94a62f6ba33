import Yuviz.Common.SPSCQueue
import Yuviz.Gateway.CallSession

/-!
# The transport over gRPC

The control thread of a session hands its messages to the send queue of the
transport, which rejects them when it is full; the writer thread takes them out.
What a call of the transport comes down to is `call_eq`.

The stream is opened once, and the messages on a stream that is not open are
ignored. A message that is queued when the stream is closed is still written.
-/

namespace Yuviz.Gateway

/-- A message to the Conversation Service. -/
inductive GatewayMessage
  | audioChunk (sequenceNum : ℕ)
  | cancelGeneration
  | playbackFinished (interrupted : Bool)
  | speechEnded (durationMs : ℕ) (energyDb : Int)
  | transferInitiated (transferType destination reason transferId : String)
  | transferCompleted (destination transferId : String)
  | transferFailed (destination reason transferId : String)
  deriving DecidableEq, Repr

instance : Inhabited GatewayMessage := ⟨.cancelGeneration⟩

/-- The message is not audio. -/
def GatewayMessage.isControl : GatewayMessage → Bool
  | .audioChunk _ => false
  | _ => true

structure GrpcConversationTransport where
  streamOpen : Bool := false
  sendQueue : SPSCQueue GatewayMessage 8 := .empty
  /-- The messages that a full queue has rejected. -/
  dropped : List GatewayMessage := []

namespace GrpcConversationTransport

/-- What the methods that send a message have in common. -/
def send (msg : GatewayMessage) (t : GrpcConversationTransport) : GrpcConversationTransport :=
  if !t.streamOpen then t
  else
    match t.sendQueue.push msg with
    | (true, q) => { t with sendQueue := q }
    | (false, _) => { t with dropped := t.dropped ++ [msg] }

def sendAudio (frame : AudioFrame) : GrpcConversationTransport → GrpcConversationTransport :=
  send (.audioChunk frame.sequenceNum)

def cancelGeneration : GrpcConversationTransport → GrpcConversationTransport :=
  send .cancelGeneration

def sendPlaybackFinished (interrupted : Bool) :
    GrpcConversationTransport → GrpcConversationTransport :=
  send (.playbackFinished interrupted)

def sendSpeechEnded (durationMs : ℕ) (energyDb : Int) :
    GrpcConversationTransport → GrpcConversationTransport :=
  send (.speechEnded durationMs energyDb)

def sendTransferInitiated (transferType destination reason transferId : String) :
    GrpcConversationTransport → GrpcConversationTransport :=
  send (.transferInitiated transferType destination reason transferId)

def sendTransferCompleted (destination transferId : String) :
    GrpcConversationTransport → GrpcConversationTransport :=
  send (.transferCompleted destination transferId)

def sendTransferFailed (destination reason transferId : String) :
    GrpcConversationTransport → GrpcConversationTransport :=
  send (.transferFailed destination reason transferId)

/-- A new stream with a new queue. -/
def openSession (t : GrpcConversationTransport) : GrpcConversationTransport :=
  { t with streamOpen := true, sendQueue := .empty }

def closeSession (t : GrpcConversationTransport) : GrpcConversationTransport :=
  { t with streamOpen := false }

/-- The writer thread takes a message. -/
def write (t : GrpcConversationTransport) : Option GrpcConversationTransport :=
  t.sendQueue.pop.map fun (_, q) => { t with sendQueue := q }

/-- The method of the transport that an effect calls. -/
def call (t : GrpcConversationTransport) : SessionEffect → GrpcConversationTransport
  | .sendAudio frame => t.sendAudio frame
  | .sendSpeechEnded durationMs energyDb => t.sendSpeechEnded durationMs energyDb
  | .sendPlaybackFinished interrupted => t.sendPlaybackFinished interrupted
  | .cancelGeneration => t.cancelGeneration
  | .sendTransferInitiated type destination reason transferId =>
    t.sendTransferInitiated type destination reason transferId
  | .sendTransferCompleted destination transferId => t.sendTransferCompleted destination transferId
  | .sendTransferFailed destination detail transferId =>
    t.sendTransferFailed destination detail transferId
  | .closeSession => t.closeSession
  | _ => t

/-- The message that an effect sends. -/
def message? : SessionEffect → Option GatewayMessage
  | .sendAudio frame => some (.audioChunk frame.sequenceNum)
  | .sendSpeechEnded durationMs energyDb => some (.speechEnded durationMs energyDb)
  | .sendPlaybackFinished interrupted => some (.playbackFinished interrupted)
  | .cancelGeneration => some .cancelGeneration
  | .sendTransferInitiated type destination reason transferId =>
    some (.transferInitiated type destination reason transferId)
  | .sendTransferCompleted destination transferId => some (.transferCompleted destination transferId)
  | .sendTransferFailed destination detail transferId =>
    some (.transferFailed destination detail transferId)
  | _ => none

variable {t : GrpcConversationTransport} {msg : GatewayMessage}

/-- A call sends its message, or is none or closes the stream. -/
theorem call_cases (t : GrpcConversationTransport) (e : SessionEffect) :
    (∃ msg, message? e = some msg ∧ t.call e = t.send msg) ∨
      message? e = none ∧ (t.call e = t ∨ t.call e = t.closeSession) := by
  cases e <;> first
    | exact .inl ⟨_, rfl, rfl⟩
    | exact .inr ⟨rfl, .inl rfl⟩
    | exact .inr ⟨rfl, .inr rfl⟩

theorem send_of_closed (h : t.streamOpen = false) : t.send msg = t := by
  rw [send, h]
  rfl

theorem send_of_open (h : t.streamOpen = true) : t.send msg =
    match t.sendQueue.push msg with
    | (true, q) => { t with sendQueue := q }
    | (false, _) => { t with dropped := t.dropped ++ [msg] } := by
  rw [send, h]
  rfl

theorem send_of_lt (msg : GatewayMessage) (ho : t.streamOpen = true) (h : t.sendQueue.size < 256) :
    ∃ q, t.send msg = { t with sendQueue := q } ∧
      q.contents = t.sendQueue.contents ++ [msg] := by
  obtain ⟨htrue, hq⟩ := SPSCQueue.push_of_lt (x := msg) (by decide : 8 < 64) h
  rcases hp : t.sendQueue.push msg with ⟨b, q⟩
  rw [hp] at htrue hq
  obtain rfl : b = true := htrue
  exact ⟨q, by rw [send_of_open ho, hp], hq⟩

theorem send_of_full (ho : t.streamOpen = true) (h : 256 ≤ t.sendQueue.size) :
    t.send msg = { t with dropped := t.dropped ++ [msg] } := by
  have hp : t.sendQueue.push msg = (false, t.sendQueue) := SPSCQueue.push_of_full h
  rw [send_of_open ho, hp]

/-- The writer makes room. -/
theorem write_cases {t' : GrpcConversationTransport} (h : t.write = some t') :
    t'.sendQueue.size ≤ t.sendQueue.size ∧ t'.streamOpen = t.streamOpen ∧
      t'.dropped = t.dropped := by
  obtain ⟨⟨msg, q⟩, hq, rfl⟩ := Option.map_eq_some_iff.1 h
  refine ⟨?_, rfl, rfl⟩
  rcases hc : t.sendQueue.contents with _ | ⟨x, xs⟩
  · rw [SPSCQueue.pop_of_nil hc] at hq
    cases hq
  · obtain ⟨q', hpop, hcontents⟩ := SPSCQueue.pop_of_cons hc
    obtain ⟨-, rfl⟩ := Prod.mk.inj (Option.some.inj (hpop.symm.trans hq))
    show q'.size ≤ _
    rw [← SPSCQueue.length_contents, ← SPSCQueue.length_contents, hcontents, hc]
    exact Nat.le_succ _

end GrpcConversationTransport

end Yuviz.Gateway
