import Yuviz.Conversation.FSM
import Yuviz.Conversation.TransferEngine
import Yuviz.Conversation.Workflow

/-!
# The conversation session

`ConversationSession` holds the state machine of a call, and the audio heard
since the last utterance. A turn is a generator: the handler's responses drive
the machine as they come, and between two of them the servicer may call the
session for what arrived meanwhile (`TurnEvent`).

After a turn the session listens again, unless the notice of an interrupted
playback finds it speaking: nothing leads out of `bargeIn` (`runTurn_responsive_iff`).

The events published on the bus are for observability, and are left out; so is
the response of `on_audio`, which is empty for the pipeline's handler.
-/

namespace Yuviz.Conversation

abbrev Bytes := List UInt8

/-- A transition of the workflow, as the pipeline reports it. -/
structure NodeChanged where
  nodeId : String
  nodeName : String
  nodeType : NodeType
  via : String := ""
  deriving DecidableEq, Repr

/-- What the handler yields in a turn. -/
structure HandlerResponse where
  sttText : String := ""
  sttConfidence : Int := 0
  ttsPayloads : List Bytes := []
  agentText : String := ""
  endCall : Bool := false
  endCallGracePeriodMs : ℕ := 0
  transferRequest : Option TransferRequest := none
  nodeChanged : Option NodeChanged := none
  turnComplete : Bool := false
  deriving DecidableEq, Repr

/-- The outcome of the last attempt to transfer the call. -/
inductive TransferOutcome
  | success
  | failed
  | timeout
  | cancelled
  deriving DecidableEq, Repr

/-- A call of the session into its handler. -/
inductive HandlerCall
  | onAudio (payload : Bytes)
  | onSpeechEnded (audio : Bytes) (durationMs : ℕ) (energyDb : Int)
  | onText (text : String)
  | onCancel
  | onTransferFailed (destination reason : String)
  | onTransferCancelled
  | startFinalization
  | finalizeSession (reason : String)
  | onSessionEnd (reason : String) (finalState : Option TransferOutcome)
  deriving DecidableEq, Repr

structure ConversationSession where
  fsm : CallFsmState := .idle
  audioBuffer : Bytes := []
  transferOutcome : Option TransferOutcome := none
  deriving DecidableEq, Repr

namespace ConversationSession

def sessionReady (s : ConversationSession) : ConversationSession :=
  { s with fsm := s.fsm.onSessionStart.onServiceReady }

def pushAudio (payload : Bytes) (s : ConversationSession) :
    ConversationSession × List HandlerCall :=
  if s.fsm.canAcceptAudio then
    ({ s with audioBuffer := s.audioBuffer ++ payload }, [.onAudio payload])
  else (s, [])

def onPlaybackFinished (interrupted : Bool) (s : ConversationSession) : ConversationSession :=
  { s with fsm := s.fsm.onPlaybackFinished interrupted }

def cancel (s : ConversationSession) : ConversationSession × List HandlerCall :=
  ({ s with audioBuffer := [], fsm := s.fsm.onCancel }, [.onCancel])

def onTransferInitiated (s : ConversationSession) : ConversationSession × List HandlerCall :=
  ({ s with fsm := s.fsm.onTransferRequested }, [.startFinalization])

def onTransferCompleted (s : ConversationSession) : ConversationSession × List HandlerCall :=
  ({ s with
      fsm := (s.fsm.onTransferCompleted true).onSessionFinalized
      transferOutcome := some .success },
    [.finalizeSession "transfer_completed"])

def onTransferCancelled (s : ConversationSession) : ConversationSession × List HandlerCall :=
  ({ s with transferOutcome := some .cancelled }, [.onTransferCancelled])

/-- The reason a transfer outcome persists as. -/
def outcomeReason : TransferOutcome → String
  | .success => "TRANSFER_SUCCESS"
  | .failed => "TRANSFER_FAILED"
  | .timeout => "TRANSFER_TIMEOUT"
  | .cancelled => "TRANSFER_CANCELLED"

/-- A successful transfer replaces any reason to close, a failed one only those
    that say no more than that the stream ended. -/
def effectiveReason (reason : String) (s : ConversationSession) : String :=
  match s.transferOutcome with
  | some .success => outcomeReason .success
  | some .cancelled | none => reason
  | some outcome =>
    if reason ∈ ["stream_ended", "close_timeout", "session_destroyed", "transport_error"] then
      outcomeReason outcome
    else reason

def close (reason : String) (s : ConversationSession) : ConversationSession × List HandlerCall :=
  ({ s with
      audioBuffer := []
      fsm := if s.fsm.isTerminal then s.fsm else s.fsm.onSessionClose.onCloseAcknowledged },
    [.onSessionEnd (s.effectiveReason reason) s.transferOutcome])

/-! ## The recovery from a failed transfer

`on_transfer_failed` is a generator as well: the first audio of the apology
makes the session speak. -/

def beginRecovery (destination reason : String) (s : ConversationSession) :
    ConversationSession × List HandlerCall :=
  ({ s with
      transferOutcome := some (if reason = "transfer_timeout" then .timeout else .failed)
      fsm := s.fsm.onTransferFailedEvent },
    [.onTransferFailed destination reason])

/-- A response of the recovery, where `anyAudio` tells if there was audio before. -/
def respondRecovery (anyAudio : Bool) (r : HandlerResponse) (s : ConversationSession) :
    ConversationSession :=
  if r.ttsPayloads ≠ [] ∧ anyAudio = false then
    { s with fsm := s.fsm.onRecoveryResponseReady }
  else s

/-- Without any audio, no end of playback is to come. -/
def endRecovery (anyAudio : Bool) (s : ConversationSession) : ConversationSession :=
  if anyAudio then s
  else { s with fsm := s.fsm.onRecoveryResponseReady.onPlaybackFinished false }

/-! ## Turns -/

inductive TurnKind
  /-- `speech_ended`: a spoken turn. -/
  | speech
  /-- `text_input`: a typed turn, without audio. -/
  | text
  deriving DecidableEq

/-- `_SPEECH_ENDED_STATES`: elsewhere the end of an utterance is ignored. -/
def acceptsSpeech (s : ConversationSession) : Bool := s.fsm ∈ [CallFsmState.listening, .recognizing]

/-- The start of a turn. -/
def beginTurn (kind : TurnKind) (s : ConversationSession) : ConversationSession :=
  match kind with
  | .speech => { s with audioBuffer := [], fsm := s.fsm.onSpeechStarted }
  | .text => { s with fsm := s.fsm.onSpeechStarted }

/-- The session in the middle of a turn; the first audio drives the machine. -/
structure Turn where
  session : ConversationSession
  firstTts : Bool := true
  deriving DecidableEq

/-- A response of the handler passes through the session. -/
def Turn.respond (kind : TurnKind) (r : HandlerResponse) (t : Turn) : Turn :=
  let fsm := if r.sttText ≠ "" then t.session.fsm.onSttFinal else t.session.fsm
  if kind = .speech ∧ r.ttsPayloads ≠ [] ∧ t.firstTts then
    { session := { t.session with fsm := fsm.onTextReady.onFirstAudioChunk }, firstTts := false }
  else { t with session := { t.session with fsm := fsm } }

/-- The tail of the generator: whatever state the turn was left in. -/
def endTurn (s : ConversationSession) : ConversationSession :=
  if s.fsm.midTurn then { s with fsm := s.fsm.onCancel } else s

/-- What happens between the start of a turn and its end. -/
inductive TurnEvent
  | respond (r : HandlerResponse)
  | playbackFinished (interrupted : Bool)
  | cancel
  | pushAudio (payload : Bytes)
  deriving DecidableEq

def Turn.event (kind : TurnKind) (t : Turn) : TurnEvent → Turn
  | .respond r => t.respond kind r
  | .playbackFinished interrupted => { t with session := t.session.onPlaybackFinished interrupted }
  | .cancel => { t with session := t.session.cancel.1 }
  | .pushAudio payload => { t with session := (t.session.pushAudio payload).1 }

/-- How the handler's generator ends. -/
inductive Ending
  | exhausted
  | raised
  deriving DecidableEq

/-- A whole turn: one that is ignored ends at once, and one whose handler raises
    never gets to its tail. -/
def runTurn (kind : TurnKind) (s : ConversationSession) (events : List TurnEvent) (ending : Ending) :
    ConversationSession :=
  if s.acceptsSpeech then
    let t := events.foldl (Turn.event kind) { session := s.beginTurn kind }
    match ending with
    | .exhausted => t.session.endTurn
    | .raised => t.session
  else s

/-- The call is being closed, or handed over. -/
def leaving (s : ConversationSession) : Bool :=
  s.fsm ∈ [CallFsmState.transferring, .finalizing, .closing, .closed]

/-- Unless the call is ending, the session listens. -/
def Responsive (s : ConversationSession) : Prop := s.leaving = false → s.fsm = .listening

instance (s : ConversationSession) : Decidable s.Responsive :=
  inferInstanceAs (Decidable (_ → _))

/-- The notice of an interrupted playback comes while the session speaks. -/
def Strands (kind : TurnKind) : Turn → List TurnEvent → Prop
  | _, [] => False
  | t, e :: es =>
    (t.session.fsm = .speaking ∧ e = .playbackFinished true) ∨ Strands kind (t.event kind e) es

/-- The turn is ended by a cancel, or by the end of its playback. -/
def Settles (kind : TurnKind) : Turn → List TurnEvent → Prop
  | _, [] => False
  | t, e :: es =>
    (t.session.fsm.midTurn = true ∧ e = .cancel) ∨
      (t.session.fsm = .speaking ∧ e = .playbackFinished false) ∨ Settles kind (t.event kind e) es

variable {kind : TurnKind} {s : ConversationSession} {t : Turn} {e : TurnEvent}
  {es : List TurnEvent}

@[simp] theorem pushAudio_fsm {payload : Bytes} : (s.pushAudio payload).1.fsm = s.fsm := by
  rw [pushAudio]
  split_ifs <;> rfl

/-- A response drives the machine within a turn. -/
theorem respond_within (kind : TurnKind) (r : HandlerResponse) (t : Turn) :
    t.session.fsm.Within (t.respond kind r).session.fsm := by
  have hstt : t.session.fsm.Within
      (if r.sttText ≠ "" then t.session.fsm.onSttFinal else t.session.fsm) := by
    split_ifs
    · exact t.session.fsm.within_onSttFinal
    · exact .inl rfl
  rw [Turn.respond]
  by_cases htts : kind = .speech ∧ r.ttsPayloads ≠ [] ∧ t.firstTts = true
  · rw [if_pos htts]
    exact hstt.trans (CallFsmState.within_onFirstAudioChunk _)
  · rw [if_neg htts]
    exact hstt

/-- A cancel and the end of playback end a turn, anything else stays within it. -/
theorem event_fsm (kind : TurnKind) (t : Turn) (e : TurnEvent) :
    (t.session.fsm.midTurn = true ∧ e = .cancel ∧ (t.event kind e).session.fsm = .listening) ∨
    (t.session.fsm = .speaking ∧ e = .playbackFinished false ∧
      (t.event kind e).session.fsm = .listening) ∨
    (t.session.fsm = .speaking ∧ e = .playbackFinished true ∧
      (t.event kind e).session.fsm = .bargeIn) ∨
    ¬(t.session.fsm.midTurn = true ∧ e = .cancel) ∧
      (∀ interrupted, ¬(t.session.fsm = .speaking ∧ e = .playbackFinished interrupted)) ∧
      t.session.fsm.Within (t.event kind e).session.fsm := by
  rcases e with r | interrupted | _ | payload
  · exact .inr (.inr (.inr ⟨nofun, nofun, respond_within kind r t⟩))
  · by_cases hs : t.session.fsm = .speaking
    · cases interrupted <;>
        simp [Turn.event, onPlaybackFinished, CallFsmState.onPlaybackFinished_eq, hs]
    · simp [Turn.event, onPlaybackFinished, CallFsmState.onPlaybackFinished_eq, hs,
        CallFsmState.Within]
  · by_cases hm : t.session.fsm.midTurn = true <;>
      simp [Turn.event, cancel, CallFsmState.onCancel_eq, hm, CallFsmState.Within]
  · simp [Turn.event, CallFsmState.Within]

/-- Out of the middle of a turn, its events leave the machine alone. -/
theorem foldl_event_fsm (kind : TurnKind) (h : t.session.fsm.midTurn = false)
    (es : List TurnEvent) :
    (es.foldl (Turn.event kind) t).session.fsm = t.session.fsm ∧
      ¬Strands kind t es ∧ ¬Settles kind t es := by
  induction es generalizing t with
  | nil => exact ⟨rfl, id, id⟩
  | cons e es ih =>
    have hs : t.session.fsm ≠ .speaking := by
      intro hs
      rw [hs] at h
      cases h
    have he : (t.event kind e).session.fsm = t.session.fsm := by
      rcases event_fsm kind t e with ⟨hm, -⟩ | ⟨hs', -⟩ | ⟨hs', -⟩ | ⟨-, -, he | ⟨hm, -⟩⟩
      · simp [h] at hm
      · exact absurd hs' hs
      · exact absurd hs' hs
      · exact he
      · simp [h] at hm
    obtain ⟨hf, hst, hse⟩ := ih (he ▸ h)
    exact ⟨hf.trans he, by simp [Strands, hs, hst], by simp [Settles, h, hs, hse]⟩

/-- How the events of a turn leave the machine: in the middle of the turn
    unless it is stranded or settled, whichever comes first. -/
theorem foldl_event_of_midTurn (kind : TurnKind) (h : t.session.fsm.midTurn = true)
    (es : List TurnEvent) :
    ((es.foldl (Turn.event kind) t).session.fsm = .bargeIn ↔ Strands kind t es) ∧
    ((es.foldl (Turn.event kind) t).session.fsm = .listening ↔ Settles kind t es) ∧
    ((es.foldl (Turn.event kind) t).session.fsm ∈ [CallFsmState.bargeIn, .listening] ∨
      (es.foldl (Turn.event kind) t).session.fsm.midTurn = true) := by
  induction es generalizing t with
  | nil =>
    have hne : t.session.fsm ≠ .bargeIn ∧ t.session.fsm ≠ .listening := by
      constructor <;> intro hs <;> simp [hs, CallFsmState.midTurn] at h
    simp [Strands, Settles, hne, h]
  | cons e es ih =>
    rw [List.foldl_cons]
    rcases event_fsm kind t e with ⟨-, rfl, he⟩ | ⟨hs, rfl, he⟩ | ⟨hs, rfl, he⟩ | ⟨hc, hp, he⟩
    · have hev : (t.event kind .cancel).session.fsm.midTurn = false := by rw [he]; rfl
      obtain ⟨hf, hst, -⟩ := foldl_event_fsm kind hev es
      simp [Strands, Settles, h, hf, he, hst]
    · have hev : (t.event kind (.playbackFinished false)).session.fsm.midTurn = false := by
        rw [he]; rfl
      obtain ⟨hf, hst, -⟩ := foldl_event_fsm kind hev es
      simp [Strands, Settles, hs, hf, he, hst]
    · have hev : (t.event kind (.playbackFinished true)).session.fsm.midTurn = false := by
        rw [he]; rfl
      obtain ⟨hf, -, hse⟩ := foldl_event_fsm kind hev es
      simp [Strands, Settles, hs, hf, he, hse]
    · have hm : (t.event kind e).session.fsm.midTurn = true := by
        rcases he with he | ⟨-, he⟩
        · rw [he]; exact h
        · exact he
      simpa [Strands, Settles, hc, hp] using ih hm

theorem beginTurn_midTurn (h : s.acceptsSpeech = true) :
    (s.beginTurn kind).fsm.midTurn = true := by
  simp only [acceptsSpeech, List.mem_cons, List.not_mem_nil, or_false, decide_eq_true_eq] at h
  rcases h with h | h <;> cases kind <;> simp only [beginTurn, h] <;> rfl

/-- The tail of a turn ends it, unless it is stranded. -/
theorem endTurn_fsm (s : ConversationSession) :
    s.endTurn.fsm = if s.fsm.midTurn then .listening else s.fsm := by
  rw [endTurn]
  split_ifs with h
  · simp [CallFsmState.onCancel_eq, h]
  · rfl

/-- A turn leaves the session responsive if and only if the notice of an
    interrupted playback does not find it speaking, and the turn is settled
    before its handler raises; a turn that is ignored, if the call is ending. -/
theorem runTurn_responsive_iff (kind : TurnKind) (s : ConversationSession) (es : List TurnEvent)
    (ending : Ending) :
    (runTurn kind s es ending).Responsive ↔
      if s.acceptsSpeech then
        ¬Strands kind { session := s.beginTurn kind } es ∧
          (ending = .raised → Settles kind { session := s.beginTurn kind } es)
      else s.leaving = true := by
  rw [runTurn]
  split_ifs with hs
  · have hm : ({ session := s.beginTurn kind } : Turn).session.fsm.midTurn = true :=
      beginTurn_midTurn hs
    obtain ⟨hstrands, hsettles, hend⟩ := foldl_event_of_midTurn kind hm es
    rw [← hstrands, ← hsettles]
    dsimp only
    generalize (es.foldl (Turn.event kind) { session := s.beginTurn kind }).session = s' at *
    simp only [List.mem_cons, List.not_mem_nil, or_false] at hend
    rcases hend with (h | h) | h
    · cases ending <;>
        simp [Responsive, leaving, endTurn_fsm, h, CallFsmState.midTurn]
    · cases ending <;>
        simp [Responsive, leaving, endTurn_fsm, h, CallFsmState.midTurn]
    · have hb : s'.fsm ≠ .bargeIn ∧ s'.fsm ≠ .listening ∧ s'.leaving = false := by
        simp only [CallFsmState.midTurn, List.mem_cons, List.not_mem_nil, or_false,
          decide_eq_true_eq] at h
        rcases h with h | h | h | h <;> simp [leaving, h]
      cases ending
      · simp [Responsive, endTurn_fsm, h, hb]
      · simp [Responsive, hb]
  · refine ⟨fun h => ?_, fun h hl => ?_⟩
    · by_contra hl
      rw [Bool.not_eq_true] at hl
      simp [acceptsSpeech, h hl] at hs
    · rw [h] at hl
      cases hl

/-- The notice of the interrupted playback of the last turn, which the gateway
    sends after the utterance that interrupted it, finds the next turn speaking. -/
theorem not_runTurn_responsive :
    ¬(runTurn .speech { fsm := .listening }
      [.respond { sttText := "yes" }, .respond { ttsPayloads := [[0]] },
        .playbackFinished true, .cancel] .exhausted).Responsive := by
  decide

end ConversationSession

end Yuviz.Conversation
