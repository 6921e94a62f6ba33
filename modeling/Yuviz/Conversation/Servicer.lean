import Yuviz.Conversation.Session
import Yuviz.System

/-!
# The servicer

`Converse` serves one call. A reader task puts what the gateway sends in a
queue, and the outer loop receives from it. While a spoken turn streams, the
queue is drained at every response of the handler, before the response is sent:

* a cancel, the end of playback and audio are handled on the spot;
* an utterance end and the messages about transfers are put back at the end of
  the queue, for the outer loop, which ends the drain;
* anything else is dropped.

The handler and the reader are the environment: they may answer anything, at
any time (`Servicer.step`). Every message carries the number of its arrival,
which is not read.
-/

namespace Yuviz.Conversation

/-- What the gateway sends. -/
inductive GatewayMessage
  | audioChunk (payload : Bytes)
  | speechEnded (durationMs : ℕ) (energyDb : Int)
  | cancelGeneration (traceId : String)
  | playbackFinished (interrupted : Bool)
  | transferInitiated (transferType destination reason transferId : String)
  | transferCompleted (destination transferId : String)
  | transferFailed (destination reason transferId : String)
  | textInput (text : String)
  /-- A message the loop does not know. -/
  | other
  deriving DecidableEq, Repr

/-- What the service sends. -/
inductive ServiceMessage
  | sttResult (text : String) (confidence : Int)
  | ttsStarted
  | ttsChunk (payload : Bytes) (isFinal : Bool)
  | agentText (text : String)
  | workflowNodeChanged (node : NodeChanged)
  | cancelAck (traceId : String)
  | endCall (gracePeriodMs : ℕ)
  | transferRequest (request : TransferRequest)
  | conversationFinalized
  | error
  deriving DecidableEq, Repr

/-- What a step of the servicer does to the outside. -/
inductive Output
  | send (m : ServiceMessage)
  | call (c : HandlerCall)
  deriving DecidableEq, Repr

/-- The locals of a spoken turn; `firstTts` is the one of the session's generator. -/
structure SpeechTurn where
  firstTts : Bool := true
  ttsStartedSent : Bool := false
  cancelled : Bool := false
  sttSent : Bool := false
  endCallRequested : Bool := false
  endCallGracePeriod : ℕ := 0
  turnTransfer : Option TransferRequest := none
  deriving DecidableEq, Repr

/-- Where a spoken turn is: waiting for the handler, draining the queue before
    the response `r` is sent, or about to send it. -/
inductive Phase
  | awaiting
  | draining (r : HandlerResponse)
  | delivering (r : HandlerResponse)
  deriving DecidableEq, Repr

/-- Where `Converse` is. -/
inductive Pc
  | greeting
  | receiving
  | speech (t : SpeechTurn) (phase : Phase)
  /-- A typed turn, with the grace period if the handler ends the call. -/
  | text (endCall : Option ℕ)
  /-- The recovery from a failed transfer, and whether audio was sent. -/
  | recovery (anyAudio : Bool)
  | closed
  deriving DecidableEq, Repr

/-- A spoken turn is streaming. -/
def Pc.isTurn : Pc → Bool
  | .speech .. => true
  | _ => false

structure Servicer where
  textOnly : Bool := false
  session : ConversationSession := ({} : ConversationSession).sessionReady
  /-- What the reader has put in the queue, oldest first; `none` is the end of the stream. -/
  arrived : List (Option GatewayMessage) := []
  /-- The queue, with the numbers of the arrivals. -/
  queue : List (Option GatewayMessage × ℕ) := []
  pendingTransfer : Option TransferRequest := none
  pc : Pc := .greeting
  deriving DecidableEq, Repr

/-- The locals of a spoken turn after a response. -/
def SpeechTurn.note (r : HandlerResponse) (t : SpeechTurn) : SpeechTurn :=
  { t with
    endCallRequested := t.endCallRequested || r.endCall
    endCallGracePeriod := if r.endCall then r.endCallGracePeriodMs else t.endCallGracePeriod
    turnTransfer := r.transferRequest.or t.turnTransfer
    sttSent := t.sttSent || r.sttText ≠ ""
    ttsStartedSent := t.ttsStartedSent || r.ttsPayloads ≠ [] }

/-- `_consume_pending_transfer`: a barge-in drops the caller's own request. -/
def consumePendingTransfer (tr : TransferRequest) (interrupted : Bool) : Option ServiceMessage :=
  if interrupted = true ∧ tr.trigger ≠ "escalation_threshold" then none
  else if tr.destination = "" then none
  else some (.transferRequest tr)

namespace Servicer

inductive Label
  | greet (payloads : List Bytes)
  /-- The reader puts a message in the queue, or the end of the stream. -/
  | arrive (m : Option GatewayMessage)
  /-- The outer loop receives a message. -/
  | take
  /-- The handler yields a response. -/
  | respond (r : HandlerResponse)
  /-- A spoken turn takes a message before it sends a response. -/
  | drain
  /-- It sends the response. -/
  | deliver
  /-- The generator of the handler ends. -/
  | exhaust
  /-- An exception ends the call. -/
  | fail
  deriving DecidableEq, Repr

def calls (cs : List HandlerCall) : List Output := cs.map .call

/-- The audio of a response: the start of speech, unless it was sent before, and
    the payloads. -/
def ttsOutputs (started : Bool) (payloads : List Bytes) : List Output :=
  if payloads = [] then []
  else (if started then [] else [.send .ttsStarted] : List Output) ++
    (payloads.map fun payload => .send (.ttsChunk payload false) : List Output)

/-- The greeting: its last chunk is final. -/
def greetingOutputs : List Bytes → List Output
  | [] => []
  | payload :: payloads => .send .ttsStarted ::
      (payload :: payloads).mapIdx fun i p => .send (.ttsChunk p (i = payloads.length))

/-- The end of a playback resolves the transfer held for it. -/
def playbackFinished (interrupted : Bool) (s : Servicer) : Servicer × List Output :=
  let s' := { s with session := s.session.onPlaybackFinished interrupted, pendingTransfer := none }
  match s.pendingTransfer with
  | none => (s', [])
  | some tr =>
    match consumePendingTransfer tr interrupted with
    | some m => (s', [.send m])
    | none =>
      if interrupted then
        let (session, cs) := s'.session.onTransferCancelled
        ({ s' with session := session }, calls cs)
      else (s', [])

/-- What the tail of a spoken turn sends: an empty transcript if there was none,
    the end of the speech, and the end of the call once the speech has played. -/
def tailOutputs (t : SpeechTurn) : List Output :=
  (if t.sttSent then [] else [.send (.sttResult "" 0)] : List Output) ++
  (if t.ttsStartedSent then [.send (.ttsChunk [] true)] else [] : List Output) ++
  (if t.endCallRequested ∧ t.ttsStartedSent then [.send (.endCall t.endCallGracePeriod)] else [] :
    List Output)

/-- The tail of a spoken turn. -/
def finishTurn (t : SpeechTurn) (s : Servicer) : Servicer × List Output :=
  let s' := { s with pc := .receiving }
  if t.cancelled then (s', [])
  else
    match t.turnTransfer with
    | none => (s', tailOutputs t)
    | some tr =>
      -- without speech, no end of playback is to come
      if t.ttsStartedSent then ({ s' with pendingTransfer := some tr }, tailOutputs t)
      else (s', tailOutputs t ++ ((consumePendingTransfer tr false).map .send).toList)

/-- The end of the call. -/
def teardown (s : Servicer) : Servicer × List Output :=
  let (session, cs) := s.session.close "stream_ended"
  ({ s with session := session, pc := .closed }, calls cs)

/-- What the outer loop does with a message. -/
def receive (m : Option GatewayMessage) (s : Servicer) : Servicer × List Output :=
  match m with
  | none => s.teardown
  | some (.audioChunk payload) =>
    let (session, cs) := s.session.pushAudio payload
    ({ s with session := session }, calls cs)
  | some (.speechEnded durationMs energyDb) =>
    if s.session.acceptsSpeech then
      ({ s with session := s.session.beginTurn .speech, pc := .speech {} .awaiting },
        [.call (.onSpeechEnded s.session.audioBuffer durationMs energyDb)])
    else s.finishTurn {}
  | some (.cancelGeneration traceId) =>
    let (session, cs) := s.session.cancel
    ({ s with session := session }, calls cs ++ [.send (.cancelAck traceId)])
  | some (.playbackFinished interrupted) => s.playbackFinished interrupted
  | some (.transferInitiated ..) =>
    let (session, cs) := s.session.onTransferInitiated
    ({ s with session := session }, calls cs)
  | some (.transferCompleted ..) =>
    let (session, cs) := s.session.onTransferCompleted
    ({ s with session := session }, calls cs ++ [.send .conversationFinalized])
  | some (.transferFailed destination reason _) =>
    let (session, cs) := s.session.beginRecovery destination reason
    ({ s with session := session, pc := .recovery false }, calls cs)
  | some (.textInput text) =>
    if s.textOnly ∧ s.session.acceptsSpeech then
      ({ s with session := s.session.beginTurn .text, pc := .text none }, [.call (.onText text)])
    else (s, [])
  | some .other => (s, [])

/-- What a spoken turn does with a message it drains before the response `r`,
    and whether the drain goes on. -/
def drainOne (t : SpeechTurn) (r : HandlerResponse) (m : Option GatewayMessage × ℕ) (s : Servicer) :
    Servicer × List Output :=
  match m.1 with
  | none =>
    let (session, cs) := s.session.cancel
    ({ s with
        session := session, queue := s.queue ++ [m]
        pc := .speech { t with cancelled := true } (.delivering r) }, calls cs)
  | some (.cancelGeneration traceId) =>
    let (session, cs) := s.session.cancel
    ({ s with session := session, pc := .speech { t with cancelled := true } (.draining r) },
      calls cs ++ [.send (.cancelAck traceId)])
  | some (.playbackFinished interrupted) => s.playbackFinished interrupted
  | some (.audioChunk payload) =>
    -- frames before a cancel are taken for the end of the utterance being answered
    if t.cancelled then
      let (session, cs) := s.session.pushAudio payload
      ({ s with session := session }, calls cs)
    else (s, [])
  | some (.speechEnded ..) | some (.transferInitiated ..) | some (.transferCompleted ..)
  | some (.transferFailed ..) =>
    ({ s with queue := s.queue ++ [m], pc := .speech t (.delivering r) }, [])
  | some (.textInput _) | some .other => (s, [])

/-- What is sent of a response before its audio. -/
def textOutputs (r : HandlerResponse) : List Output :=
  (r.nodeChanged.map fun node => Output.send (.workflowNodeChanged node)).toList ++
  (if r.sttText ≠ "" then [.send (.sttResult r.sttText r.sttConfidence)] else [])

/-- A response of a spoken turn is sent, unless the turn was cancelled. -/
def deliver (t : SpeechTurn) (r : HandlerResponse) (s : Servicer) : Servicer × List Output :=
  if t.cancelled then ({ s with pc := .speech t .awaiting }, [])
  else ({ s with pc := .speech (t.note r) .awaiting },
    textOutputs r ++ ttsOutputs t.ttsStartedSent r.ttsPayloads)

/-- A response of a typed turn. -/
def respondText (endCall : Option ℕ) (r : HandlerResponse) (s : Servicer) :
    Servicer × List Output :=
  let turn := ConversationSession.Turn.respond .text r { session := s.session }
  ({ s with
      session := turn.session
      pc := .text (if r.endCall then some r.endCallGracePeriodMs else endCall) },
    textOutputs r ++
    (if r.agentText ≠ "" ∨ r.turnComplete then [.send (.agentText r.agentText)] else []) ++
    ((r.transferRequest.bind fun tr => consumePendingTransfer tr false).map .send).toList)

/-- The handler yields the response `r`. -/
def respond (r : HandlerResponse) (s : Servicer) : Option (Servicer × List Output) :=
  match s.pc with
  | .speech t .awaiting =>
    let turn := ConversationSession.Turn.respond .speech r
      { session := s.session, firstTts := t.firstTts }
    some ({ s with
      session := turn.session, pc := .speech { t with firstTts := turn.firstTts } (.draining r) }, [])
  | .text endCall => some (s.respondText endCall r)
  | .recovery anyAudio =>
    some ({ s with
      session := s.session.respondRecovery anyAudio r
      pc := .recovery (anyAudio || r.ttsPayloads ≠ []) }, ttsOutputs anyAudio r.ttsPayloads)
  | _ => none

/-- The generator of the handler ends, and with it that of the session. -/
def exhaust (s : Servicer) : Option (Servicer × List Output) :=
  match s.pc with
  | .speech t .awaiting => some (finishTurn t { s with session := s.session.endTurn })
  | .text endCall =>
    some ({ s with session := s.session.endTurn, pc := .receiving },
      (endCall.map fun gracePeriodMs => Output.send (.endCall gracePeriodMs)).toList)
  | .recovery anyAudio =>
    some ({ s with session := s.session.endRecovery anyAudio, pc := .receiving },
      if anyAudio then [.send (.ttsChunk [] true)] else [])
  | _ => none

/-- A step of `Converse`, or of its environment, and what it does to the outside. -/
def step (s : Servicer) : Label → Option (Servicer × List Output)
  | .greet payloads =>
    if s.pc = .greeting then some ({ s with pc := .receiving }, greetingOutputs payloads) else none
  | .arrive m =>
    if none ∈ s.arrived then none
    else some ({ s with
      arrived := s.arrived ++ [m], queue := s.queue ++ [(m, s.arrived.length)] }, [])
  | .take =>
    match s.pc, s.queue with
    | .receiving, m :: queue => some (receive m.1 { s with queue := queue })
    | _, _ => none
  | .respond r => s.respond r
  | .drain =>
    match s.pc, s.queue with
    | .speech t (.draining r), m :: queue => some (drainOne t r m { s with queue := queue })
    | _, _ => none
  | .deliver =>
    match s.pc with
    | .speech t (.draining r) => if s.queue = [] then some (s.deliver t r) else none
    | .speech t (.delivering r) => some (s.deliver t r)
    | _ => none
  | .exhaust => s.exhaust
  | .fail => if s.pc = .closed then none else
    some ((s.teardown.1, .send .error :: s.teardown.2))

/-- The calls the servicer serves. -/
def system (textOnly : Bool) : System Servicer Label where
  init := { textOnly := textOnly }
  step s l := (s.step l).map Prod.fst

/-! ## What the steps do not change

Only the reader and the takers of the queue touch it. -/

variable {s : Servicer} {t : SpeechTurn} {r : HandlerResponse} {m : Option GatewayMessage}
  {interrupted : Bool}

/-- What a finished playback leaves alone. -/
theorem playbackFinished_frame (interrupted : Bool) (s : Servicer) :
    (s.playbackFinished interrupted).1.queue = s.queue ∧
    (s.playbackFinished interrupted).1.arrived = s.arrived ∧
    (s.playbackFinished interrupted).1.pc = s.pc := by
  simp only [playbackFinished]
  split
  · exact ⟨rfl, rfl, rfl⟩
  · split
    · exact ⟨rfl, rfl, rfl⟩
    · split_ifs <;> exact ⟨rfl, rfl, rfl⟩

/-- A turn that is finished leaves the queue as it is. -/
theorem finishTurn_frame (t : SpeechTurn) (s : Servicer) :
    (s.finishTurn t).1.queue = s.queue ∧ (s.finishTurn t).1.arrived = s.arrived ∧
    (s.finishTurn t).1.pc = .receiving ∧ (s.finishTurn t).1.session = s.session := by
  rcases h : t.turnTransfer with _ | tr <;> simp only [finishTurn, h] <;> split_ifs <;>
    exact ⟨rfl, rfl, rfl, rfl⟩

/-- A response that is delivered is noted in its turn, and nothing else happens. -/
theorem deliver_frame (t : SpeechTurn) (r : HandlerResponse) (s : Servicer) :
    (s.deliver t r).1 = { s with
      pc := .speech (if t.cancelled then t else t.note r) .awaiting } := by
  rw [deliver]
  split_ifs <;> rfl

/-- What is received does not change the queue. -/
theorem receive_frame (m : Option GatewayMessage) (s : Servicer) :
    (s.receive m).1.queue = s.queue ∧ (s.receive m).1.arrived = s.arrived := by
  rcases m with _ | m
  · exact ⟨rfl, rfl⟩
  · cases m
    case speechEnded durationMs energyDb =>
      simp only [receive]
      split_ifs
      · exact ⟨rfl, rfl⟩
      · exact ⟨(finishTurn_frame _ _).1, (finishTurn_frame _ _).2.1⟩
    case playbackFinished interrupted =>
      exact ⟨(playbackFinished_frame _ _).1, (playbackFinished_frame _ _).2.1⟩
    case textInput text =>
      simp only [receive]
      split_ifs <;> exact ⟨rfl, rfl⟩
    all_goals exact ⟨rfl, rfl⟩

end Servicer

end Yuviz.Conversation
