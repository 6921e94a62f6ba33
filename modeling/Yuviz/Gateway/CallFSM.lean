import Mathlib.Data.List.Basic

/-!
# The call state machine

The state machine of a call in the gateway, `CallFSM`: its states and timers,
the transitions it allows, and the trigger methods its owner calls on it. A
trigger works on the fields of the machine and makes calls into the handlers
its owner injected (`CallFsmHandlers`); an `Exec` is the machine in the middle
of a trigger, with the handler calls made so far, oldest first.

* The owner answers `schedule_timer` by the next id of its counter, `nextId`.
* A call to `on_state_changed` ends a transition, after which a trigger only
  makes handler calls: an owner calling triggers from within that handler
  finds the fields the outer trigger leaves.
* The clock is logical: the time a state is entered (`state_entered_at_`) is
  the number of transitions taken, which numbers the *visits* of the states.
  The durations computed from it only go to the log and to the metrics, which
  are left out.

An energy or a confidence (a float of the source) is only passed on, and stands
here as an integer.
-/

namespace Yuviz.Gateway

/-- The states of a call. -/
inductive CallFsmState
  | idle
  | connecting
  | listening
  | recognizing
  | thinking
  | synthesizing
  | speaking
  | waitingForHangup
  | bargeIn
  | transferring
  | finalizing
  | closing
  | closed
  deriving DecidableEq, Repr

/-- The timers of the states. -/
inductive FsmTimerType
  | connectionTimeout
  | noSpeechTimeout
  | maxUtteranceTimeout
  | sttTimeout
  | llmTimeout
  | ttsTimeout
  | playbackTimeout
  | goodbyeTimeout
  | goodbyeConfirm
  | bargeInWindow
  | transferTimeout
  | finalizingTimeout
  | closeTimeout
  | rtpInactivity
  deriving DecidableEq, Repr

/-- The timers a state may have armed. -/
def CallFsmState.timers : CallFsmState → List FsmTimerType
  | .idle | .closed => []
  | .connecting => [.connectionTimeout]
  | .listening => [.noSpeechTimeout]
  | .recognizing => [.maxUtteranceTimeout, .sttTimeout]
  | .thinking => [.llmTimeout]
  | .synthesizing => [.ttsTimeout]
  | .speaking => [.playbackTimeout]
  | .waitingForHangup => [.goodbyeTimeout, .goodbyeConfirm]
  | .bargeIn => [.bargeInWindow]
  | .transferring => [.transferTimeout]
  | .finalizing => [.finalizingTimeout]
  | .closing => [.closeTimeout]

/-- The id of a timer of the machine, `0` being none. -/
abbrev FsmTimerId := ℕ

/-- No timer. -/
abbrev kNoTimer : FsmTimerId := 0

/-- The delays of the timers, in milliseconds. -/
structure CallFsmTimerConfig where
  connectionTimeout : Int := 10000
  noSpeechTimeout : Int := 30000
  maxUtteranceTimeout : Int := 45000
  sttTimeout : Int := 8000
  llmTimeout : Int := 20000
  ttsTimeout : Int := 10000
  playbackTimeout : Int := 60000
  goodbyeTimeout : Int := 2500
  goodbyeConfirm : Int := 300
  bargeInWindow : Int := 500
  transferTimeout : Int := 45000
  finalizingTimeout : Int := 15000
  closeTimeout : Int := 5000

/-- A call of the machine into the handlers of its owner. -/
inductive HandlerCall
  /-- A timer scheduled in the visit `visit`, answered by the id `id`. -/
  | scheduleTimer (id : FsmTimerId) (type : FsmTimerType) (delay : Int) (visit : ℕ)
  | cancelTimer (id : FsmTimerId)
  | onStateChanged (source target : CallFsmState) (trigger : String)
  | onSpeechStarted (energyDb : Int)
  | onSpeechEnded (durationMs : ℕ) (energyDb : Int)
  | onSttFinal (text : String) (confidence : Int)
  | onPlaybackFinished (interrupted : Bool)
  | onTransferRequested (queueId reason : String)
  | onTransferCompleted (success : Bool) (transferId : String)
  | onConversationFinalized
  | onSessionClose (reason : String)
  deriving DecidableEq, Repr

/-- The call schedules or cancels a timer. -/
def HandlerCall.isTimer : HandlerCall → Bool
  | .scheduleTimer .. | .cancelTimer _ => true
  | _ => false

/-- The fields of the machine. -/
structure CallFSM where
  state : CallFsmState := .idle
  /-- The number of transitions taken: the logical `state_entered_at_`. -/
  visit : ℕ := 0
  activeTimer : FsmTimerId := kNoTimer
  pendingGoodbyeTimeoutOverride : Int := 0
  awaitingGoodbyeConfirm : Bool := false
  pendingGoodbyeEnergyDb : Int := 0
  deriving DecidableEq, Repr

namespace CallFSM

/-- The machine in the middle of a trigger. -/
structure Exec where
  fsm : CallFSM
  nextId : FsmTimerId
  calls : List HandlerCall := []
  deriving DecidableEq, Repr

/-- The only legal state changes. -/
def kValidTransitions : List (CallFsmState × CallFsmState) := [
  (.idle, .connecting),
  (.connecting, .listening),
  (.listening, .recognizing),
  (.recognizing, .thinking),
  (.thinking, .synthesizing),
  (.synthesizing, .speaking),
  (.speaking, .listening),
  (.speaking, .waitingForHangup),
  (.waitingForHangup, .recognizing),
  (.speaking, .bargeIn),
  (.thinking, .bargeIn),
  (.synthesizing, .bargeIn),
  (.bargeIn, .listening),
  (.recognizing, .listening),
  (.thinking, .listening),
  (.synthesizing, .listening),
  (.listening, .transferring),
  (.recognizing, .transferring),
  (.thinking, .transferring),
  (.synthesizing, .transferring),
  (.speaking, .transferring),
  (.transferring, .closing),
  (.transferring, .thinking),
  (.transferring, .finalizing),
  (.finalizing, .closing),
  (.connecting, .closing),
  (.listening, .closing),
  (.recognizing, .closing),
  (.thinking, .closing),
  (.synthesizing, .closing),
  (.speaking, .closing),
  (.waitingForHangup, .closing),
  (.bargeIn, .closing),
  (.closing, .closed)]

def isValid (source target : CallFsmState) : Bool := (source, target) ∈ kValidTransitions

def isActive (f : CallFSM) : Bool :=
  f.state ≠ .idle ∧ f.state ≠ .closing ∧ f.state ≠ .closed

def isTerminal (f : CallFSM) : Bool := f.state = .closed

def canAcceptAudio (f : CallFSM) : Bool :=
  f.state ∈ [.listening, .recognizing, .thinking, .synthesizing, .speaking, .waitingForHangup,
    .bargeIn]

/-! ## Transitions -/

section

variable (cfg : CallFsmTimerConfig)

/-- A call into a handler. -/
def call (c : HandlerCall) (x : Exec) : Exec := { x with calls := x.calls ++ [c] }

/-- Cancels the active timer, if there is one. -/
def cancelActive (x : Exec) : Exec :=
  if x.fsm.activeTimer ≠ kNoTimer then
    { call (.cancelTimer x.fsm.activeTimer) x with fsm.activeTimer := kNoTimer }
  else x

/-- Schedules a timer and makes it the active one. -/
def arm (type : FsmTimerType) (delay : Int) (x : Exec) : Exec :=
  { call (.scheduleTimer x.nextId type delay x.fsm.visit) x with
    fsm.activeTimer := x.nextId
    nextId := x.nextId + 1 }

def onExit (x : Exec) : Exec := cancelActive x

def onEnter (s : CallFsmState) (x : Exec) : Exec :=
  match s with
  | .connecting => arm .connectionTimeout cfg.connectionTimeout x
  | .listening => arm .noSpeechTimeout cfg.noSpeechTimeout x
  | .recognizing => arm .maxUtteranceTimeout cfg.maxUtteranceTimeout x
  | .thinking => arm .llmTimeout cfg.llmTimeout x
  | .synthesizing => arm .ttsTimeout cfg.ttsTimeout x
  | .speaking => arm .playbackTimeout cfg.playbackTimeout x
  | .waitingForHangup =>
    let timeout := if x.fsm.pendingGoodbyeTimeoutOverride > 0 then
      x.fsm.pendingGoodbyeTimeoutOverride else cfg.goodbyeTimeout
    { arm .goodbyeTimeout timeout x with fsm.pendingGoodbyeTimeoutOverride := 0 }
  | .bargeIn => arm .bargeInWindow cfg.bargeInWindow x
  | .transferring => arm .transferTimeout cfg.transferTimeout x
  | .finalizing => arm .finalizingTimeout cfg.finalizingTimeout x
  | .closing => arm .closeTimeout cfg.closeTimeout x
  | .idle | .closed => x

def transition (next : CallFsmState) (trigger : String) (x : Exec) : Exec :=
  let prev := x.fsm.state
  if isValid prev next then
    let x := onExit x
    let x := { x with fsm.state := next, fsm.visit := x.fsm.visit + 1 }
    let x := onEnter cfg next x
    call (.onStateChanged prev next trigger) x
  else x

/-! ## Triggers -/

def onSessionStart (x : Exec) : Exec := transition cfg .connecting "session_start" x

def onServiceReady (x : Exec) : Exec :=
  if x.fsm.state ≠ .connecting then x else transition cfg .listening "service_ready" x

def onSpeechStarted (energyDb : Int) (x : Exec) : Exec :=
  if x.fsm.state = .waitingForHangup then
    let x := arm .goodbyeConfirm cfg.goodbyeConfirm (cancelActive x)
    { x with fsm.awaitingGoodbyeConfirm := true, fsm.pendingGoodbyeEnergyDb := energyDb }
  else if x.fsm.state ≠ .listening then x
  else call (.onSpeechStarted energyDb) (transition cfg .recognizing "speech_started" x)

def notifySpeechEnded (durationMs : ℕ) (energyDb : Int) (x : Exec) : Exec :=
  if x.fsm.state = .waitingForHangup ∧ x.fsm.awaitingGoodbyeConfirm then
    let x := { x with fsm.awaitingGoodbyeConfirm := false }
    arm .goodbyeTimeout cfg.goodbyeTimeout (cancelActive x)
  else if x.fsm.state ≠ .recognizing then x
  else
    let x := arm .sttTimeout cfg.sttTimeout (cancelActive x)
    call (.onSpeechEnded durationMs energyDb) x

def onSttFinal (text : String) (confidence : Int) (x : Exec) : Exec :=
  if x.fsm.state ≠ .recognizing then x
  else if text.isEmpty then transition cfg .listening "stt_empty" x
  else call (.onSttFinal text confidence) (transition cfg .thinking "stt_final" x)

def onTextReady (x : Exec) : Exec :=
  if x.fsm.state ≠ .thinking then x else transition cfg .synthesizing "text_ready" x

def onFirstAudioChunk (x : Exec) : Exec :=
  if x.fsm.state ≠ .synthesizing then x else transition cfg .speaking "first_audio_chunk" x

def onPlaybackFinished (interrupted endCallPending : Bool) (goodbyeTimeoutOverride : Int)
    (x : Exec) : Exec :=
  if x.fsm.state ≠ .speaking then x
  else if interrupted then transition cfg .bargeIn "playback_interrupted" x
  else
    let x := if endCallPending then
        let x := { x with fsm.pendingGoodbyeTimeoutOverride := goodbyeTimeoutOverride }
        transition cfg .waitingForHangup "goodbye_played" x
      else transition cfg .listening "playback_finished" x
    call (.onPlaybackFinished false) x

/-- `do_cancel_complete_` -/
def doCancelComplete (x : Exec) : Exec :=
  if x.fsm.state ≠ .bargeIn then x
  else call (.onPlaybackFinished true) (transition cfg .listening "cancel_complete" x)

def onCancelComplete (x : Exec) : Exec := doCancelComplete cfg x

def onEarlyBargeIn (x : Exec) : Exec :=
  if x.fsm.state ≠ .thinking ∧ x.fsm.state ≠ .synthesizing then x
  else transition cfg .bargeIn "early_barge_in" x

def onTransferRequested (queueId reason : String) (x : Exec) : Exec :=
  if !x.fsm.isActive then x
  else transition cfg .transferring "transfer_requested"
    (call (.onTransferRequested queueId reason) x)

/-- `do_transfer_completed_` -/
def doTransferCompleted (success : Bool) (transferId : String) (x : Exec) : Exec :=
  if x.fsm.state ≠ .transferring then x
  else
    let x := call (.onTransferCompleted success transferId) x
    if success then transition cfg .finalizing "transfer_completed" x
    else transition cfg .thinking "transfer_failed" x

def onTransferCompleted (success : Bool) (transferId : String) (x : Exec) : Exec :=
  doTransferCompleted cfg success transferId x

/-- `do_conversation_finalized_` -/
def doConversationFinalized (x : Exec) : Exec :=
  if x.fsm.state ≠ .finalizing then x
  else transition cfg .closing "conversation_finalized" (call .onConversationFinalized x)

def onConversationFinalized (x : Exec) : Exec := doConversationFinalized cfg x

/-- `do_session_close_` -/
def doSessionClose (reason : String) (x : Exec) : Exec :=
  if x.fsm.state = .closing ∨ x.fsm.state = .closed then x
  else transition cfg .closing reason (call (.onSessionClose reason) x)

def onSessionClose (reason : String) (x : Exec) : Exec := doSessionClose cfg reason x

def onCloseAcknowledged (x : Exec) : Exec :=
  if x.fsm.state ≠ .closing then x else transition cfg .closed "close_acknowledged" x

def onTimerFired (type : FsmTimerType) (x : Exec) : Exec :=
  -- The timer is taken for consumed before its type is compared with the state.
  let x := { x with fsm.activeTimer := kNoTimer }
  match type with
  | .connectionTimeout =>
    if x.fsm.state = .connecting then doSessionClose cfg "connection_timeout" x else x
  | .noSpeechTimeout =>
    if x.fsm.state = .listening then doSessionClose cfg "no_speech_timeout" x else x
  | .maxUtteranceTimeout =>
    if x.fsm.state = .recognizing then transition cfg .listening "max_utterance_timeout" x else x
  | .sttTimeout =>
    if x.fsm.state = .recognizing then transition cfg .listening "stt_timeout" x else x
  | .llmTimeout =>
    if x.fsm.state = .thinking then transition cfg .listening "llm_timeout" x else x
  | .ttsTimeout =>
    if x.fsm.state = .synthesizing then transition cfg .listening "tts_timeout" x else x
  | .playbackTimeout =>
    if x.fsm.state = .speaking then doSessionClose cfg "playback_timeout" x else x
  | .goodbyeTimeout =>
    if x.fsm.state = .waitingForHangup then doSessionClose cfg "goodbye_timeout" x else x
  | .goodbyeConfirm =>
    if x.fsm.state = .waitingForHangup ∧ x.fsm.awaitingGoodbyeConfirm then
      let x := { x with fsm.awaitingGoodbyeConfirm := false }
      let x := transition cfg .recognizing "goodbye_cancelled" x
      call (.onSpeechStarted x.fsm.pendingGoodbyeEnergyDb) x
    else x
  | .bargeInWindow =>
    if x.fsm.state = .bargeIn then doCancelComplete cfg x else x
  | .transferTimeout =>
    if x.fsm.state = .transferring then doTransferCompleted cfg false "" x else x
  | .finalizingTimeout =>
    if x.fsm.state = .finalizing then doConversationFinalized cfg x else x
  | .closeTimeout =>
    if x.fsm.state = .closing then transition cfg .closed "close_timeout_forced" x else x
  | .rtpInactivity => doSessionClose cfg "rtp_inactivity" x

end

/-- A trigger method of the machine, other than the firing of a timer, with its
    arguments. -/
inductive Trigger
  | sessionStart
  | serviceReady
  | speechStarted (energyDb : Int)
  | speechEnded (durationMs : ℕ) (energyDb : Int)
  | sttFinal (text : String) (confidence : Int)
  | textReady
  | firstAudioChunk
  | playbackFinished (interrupted endCallPending : Bool) (goodbyeTimeoutOverride : Int)
  | cancelComplete
  | earlyBargeIn
  | transferRequested (queueId reason : String)
  | transferCompleted (success : Bool) (transferId : String)
  | conversationFinalized
  | sessionClose (reason : String)
  | closeAcknowledged
  deriving DecidableEq, Repr

/-- The trigger method `t`. -/
def run (cfg : CallFsmTimerConfig) : Trigger → Exec → Exec
  | .sessionStart => onSessionStart cfg
  | .serviceReady => onServiceReady cfg
  | .speechStarted e => onSpeechStarted cfg e
  | .speechEnded d e => notifySpeechEnded cfg d e
  | .sttFinal text c => onSttFinal cfg text c
  | .textReady => onTextReady cfg
  | .firstAudioChunk => onFirstAudioChunk cfg
  | .playbackFinished i e o => onPlaybackFinished cfg i e o
  | .cancelComplete => onCancelComplete cfg
  | .earlyBargeIn => onEarlyBargeIn cfg
  | .transferRequested q r => onTransferRequested cfg q r
  | .transferCompleted s id => onTransferCompleted cfg s id
  | .conversationFinalized => onConversationFinalized cfg
  | .sessionClose r => onSessionClose cfg r
  | .closeAcknowledged => onCloseAcknowledged cfg

/-! ## What a transition does -/

/-- The calls that schedule or cancel a timer. -/
def timerCalls (cs : List HandlerCall) : List HandlerCall := cs.filter HandlerCall.isTimer

/-- The call cancelling the active timer, if there is one. -/
def cancels (f : CallFSM) : List HandlerCall :=
  if f.activeTimer ≠ kNoTimer then [.cancelTimer f.activeTimer] else []

@[simp] theorem timerCalls_nil : timerCalls [] = [] := rfl

@[simp] theorem timerCalls_append (cs ds : List HandlerCall) :
    timerCalls (cs ++ ds) = timerCalls cs ++ timerCalls ds := List.filter_append ..

@[simp] theorem timerCalls_cons (c : HandlerCall) (cs : List HandlerCall) :
    timerCalls (c :: cs) = if c.isTimer then c :: timerCalls cs else timerCalls cs :=
  List.filter_cons ..

@[simp] theorem timerCalls_cancels (f : CallFSM) : timerCalls (cancels f) = cancels f := by
  unfold cancels
  split <;> simp [HandlerCall.isTimer]

section

variable {cfg : CallFsmTimerConfig} {next : CallFsmState} {trigger : String} {x : Exec}

@[simp] theorem call_fsm (c : HandlerCall) : (call c x).fsm = x.fsm := rfl
@[simp] theorem call_nextId (c : HandlerCall) : (call c x).nextId = x.nextId := rfl
@[simp] theorem call_calls (c : HandlerCall) : (call c x).calls = x.calls ++ [c] := rfl

@[simp] theorem cancelActive_fsm :
    (cancelActive x).fsm = { x.fsm with activeTimer := kNoTimer } := by
  unfold cancelActive
  split
  · rfl
  · next h => rw [not_ne_iff] at h; rw [← h]

@[simp] theorem cancelActive_nextId : (cancelActive x).nextId = x.nextId := by
  unfold cancelActive
  split <;> rfl

@[simp] theorem cancelActive_calls : (cancelActive x).calls = x.calls ++ cancels x.fsm := by
  unfold cancelActive cancels
  split <;> simp

section
variable (type : FsmTimerType) (delay : Int)

@[simp] theorem arm_fsm : (arm type delay x).fsm = { x.fsm with activeTimer := x.nextId } := rfl
@[simp] theorem arm_nextId : (arm type delay x).nextId = x.nextId + 1 := rfl
@[simp] theorem arm_calls :
    (arm type delay x).calls = x.calls ++ [.scheduleTimer x.nextId type delay x.fsm.visit] := rfl

end

/-- Entering a state arms its timer, unless it has none. -/
theorem onEnter_cases (cfg : CallFsmTimerConfig) (s : CallFsmState) (x : Exec) :
    (s.timers = [] ∧ onEnter cfg s x = x) ∨
      ∃ type delay override, type ∈ s.timers ∧ type ≠ .goodbyeConfirm ∧
        onEnter cfg s x =
          { arm type delay x with fsm.pendingGoodbyeTimeoutOverride := override } := by
  cases s
  case idle | closed => exact .inl ⟨rfl, rfl⟩
  all_goals exact .inr ⟨_, _, _, by simp [CallFsmState.timers], by simp, rfl⟩

theorem transition_of_not_isValid (h : ¬isValid x.fsm.state next) :
    transition cfg next trigger x = x := by
  simp [transition, h]

/-- What a legal transition from `x` to the state `next` does: it cancels the
    active timer, enters `next` and arms the timer of `next`, if it has one. -/
structure Moves (x : Exec) (next : CallFsmState) (trigger : String) (x' : Exec) : Prop where
  state : x'.fsm.state = next
  visit : x'.fsm.visit = x.fsm.visit + 1
  awaiting : x'.fsm.awaitingGoodbyeConfirm = x.fsm.awaitingGoodbyeConfirm
  energy : x'.fsm.pendingGoodbyeEnergyDb = x.fsm.pendingGoodbyeEnergyDb
  calls : (next.timers = [] ∧ x'.fsm.activeTimer = kNoTimer ∧ x'.nextId = x.nextId ∧
      x'.calls = x.calls ++ cancels x.fsm ++ [.onStateChanged x.fsm.state next trigger]) ∨
    ∃ type delay, type ∈ next.timers ∧ type ≠ .goodbyeConfirm ∧
      x'.fsm.activeTimer = x.nextId ∧ x'.nextId = x.nextId + 1 ∧
      x'.calls = x.calls ++ cancels x.fsm ++
        [.scheduleTimer x.nextId type delay x'.fsm.visit, .onStateChanged x.fsm.state next trigger]

theorem transition_moves (h : isValid x.fsm.state next) :
    Moves x next trigger (transition cfg next trigger x) := by
  simp only [transition, h, if_true, onExit]
  generalize hy : ({ cancelActive x with
    fsm.state := next, fsm.visit := (cancelActive x).fsm.visit + 1 } : Exec) = y
  obtain ⟨ht, he⟩ | ⟨type, delay, o, ht, hc, he⟩ := onEnter_cases cfg next y
  all_goals rw [he, ← hy]
  · exact ⟨by simp, by simp, by simp, by simp, .inl ⟨ht, by simp⟩⟩
  · exact ⟨by simp, by simp, by simp, by simp, .inr ⟨type, delay, ht, hc, by simp⟩⟩

end

end CallFSM

end Yuviz.Gateway
