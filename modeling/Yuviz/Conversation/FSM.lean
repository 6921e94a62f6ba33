import Mathlib.Data.List.Basic

/-!
# The conversation state machine

`ConversationFSM`, the service's mirror of the gateway's call machine. Its
trigger methods are functions on the state: the handlers it calls only publish
events for observability.
-/

namespace Yuviz.Conversation

/-- The states of a conversation. -/
inductive CallFsmState
  | idle
  | connecting
  | listening
  | recognizing
  | thinking
  | synthesizing
  | speaking
  | bargeIn
  | transferring
  | recovering
  | finalizing
  | closing
  | closed
  deriving DecidableEq, Repr

namespace CallFsmState

/-- `_VALID`. -/
def validTransitions : List (CallFsmState × CallFsmState) :=
  [(idle, connecting), (connecting, listening), (listening, recognizing), (recognizing, thinking),
    (thinking, synthesizing), (synthesizing, speaking), (speaking, listening), (speaking, bargeIn),
    (bargeIn, listening),
    -- recovery
    (recognizing, listening), (thinking, listening), (synthesizing, listening),
    -- transfers
    (listening, transferring), (recognizing, transferring), (thinking, transferring),
    (synthesizing, transferring), (speaking, transferring), (transferring, closing),
    (transferring, finalizing), (finalizing, closing), (transferring, recovering),
    (recovering, speaking),
    -- teardown
    (connecting, closing), (listening, closing), (recognizing, closing), (thinking, closing),
    (synthesizing, closing), (speaking, closing), (bargeIn, closing), (recovering, closing),
    (closing, closed)]

def isTerminal (s : CallFsmState) : Bool := s = closed

def canAcceptAudio (s : CallFsmState) : Bool :=
  s ∈ [listening, recognizing, speaking, bargeIn]

def isActive (s : CallFsmState) : Bool := s ∉ [idle, closing, closed]

/-- `_transition`: an invalid one is logged and ignored. -/
def transition (s next : CallFsmState) : CallFsmState :=
  if (s, next) ∈ validTransitions then next else s

def onSessionStart (s : CallFsmState) : CallFsmState := s.transition connecting

def onServiceReady (s : CallFsmState) : CallFsmState :=
  if s ≠ connecting then s else s.transition listening

def onSpeechStarted (s : CallFsmState) : CallFsmState :=
  if s ≠ listening then s else s.transition recognizing

def onSttFinal (s : CallFsmState) : CallFsmState :=
  if s ≠ recognizing then s else s.transition thinking

def onTextReady (s : CallFsmState) : CallFsmState :=
  if s ≠ thinking then s else s.transition synthesizing

def onFirstAudioChunk (s : CallFsmState) : CallFsmState :=
  if s ≠ synthesizing then s else s.transition speaking

def onPlaybackFinished (interrupted : Bool) (s : CallFsmState) : CallFsmState :=
  if s ≠ speaking then s
  else if interrupted then s.transition bargeIn
  else s.transition listening

def onCancel (s : CallFsmState) : CallFsmState :=
  if s = speaking then (s.transition bargeIn).transition listening
  else if s ∈ [recognizing, thinking, synthesizing] then s.transition listening
  else s

def onTransferRequested (s : CallFsmState) : CallFsmState :=
  if s.isActive then s.transition transferring else s

def onTransferCompleted (success : Bool) (s : CallFsmState) : CallFsmState :=
  if s ≠ transferring then s
  else if success then s.transition finalizing
  else s.transition closing

def onSessionFinalized (s : CallFsmState) : CallFsmState :=
  if s ≠ finalizing then s else s.transition closing

def onTransferFailedEvent (s : CallFsmState) : CallFsmState :=
  if s ≠ transferring then s else s.transition recovering

def onRecoveryResponseReady (s : CallFsmState) : CallFsmState :=
  if s ≠ recovering then s else s.transition speaking

def onSessionClose (s : CallFsmState) : CallFsmState :=
  if s ∈ [closing, closed] then s else s.transition closing

def onCloseAcknowledged (s : CallFsmState) : CallFsmState :=
  if s ≠ closing then s else s.transition closed

/-- The machine is in the middle of a turn. -/
def midTurn (s : CallFsmState) : Bool := s ∈ [recognizing, thinking, synthesizing, speaking]

/-- A move within a turn. -/
def Within (s s' : CallFsmState) : Prop := s' = s ∨ s.midTurn = true ∧ s'.midTurn = true

variable {s s' s'' : CallFsmState}

theorem Within.trans (h : s.Within s') (h' : s'.Within s'') : s.Within s'' := by
  rcases h with rfl | ⟨hs, hs'⟩
  · exact h'
  · rcases h' with rfl | ⟨-, hs''⟩
    · exact .inr ⟨hs, hs'⟩
    · exact .inr ⟨hs, hs''⟩

theorem within_onSttFinal (s : CallFsmState) : s.Within s.onSttFinal := by
  cases s <;> simp [Within, onSttFinal, transition, validTransitions, midTurn]

theorem within_onFirstAudioChunk (s : CallFsmState) :
    s.Within s.onTextReady.onFirstAudioChunk := by
  cases s <;> simp [Within, onTextReady, onFirstAudioChunk, transition, validTransitions, midTurn]

/-- A cancel ends a turn from any state in the middle of it, and does nothing else. -/
theorem onCancel_eq (s : CallFsmState) : s.onCancel = if s.midTurn then listening else s := by
  cases s <;> rfl

/-- The call is being closed, or closed. -/
def isOver (s : CallFsmState) : Bool := s ∈ [closing, closed]

/-- Nothing but the close itself moves a machine that is over. -/
theorem eq_of_isOver (h : s.isOver = true) (interrupted success : Bool) :
    s.onSpeechStarted = s ∧ s.onSttFinal = s ∧ s.onTextReady = s ∧ s.onFirstAudioChunk = s ∧
    s.onPlaybackFinished interrupted = s ∧ s.onCancel = s ∧ s.onTransferRequested = s ∧
    s.onTransferCompleted success = s ∧ s.onSessionFinalized = s ∧ s.onTransferFailedEvent = s ∧
    s.onRecoveryResponseReady = s ∧ s.midTurn = false := by
  simp only [isOver, List.mem_cons, List.not_mem_nil, or_false, decide_eq_true_eq] at h
  rcases h with rfl | rfl <;> exact ⟨rfl, rfl, rfl, rfl, rfl, rfl, rfl, rfl, rfl, rfl, rfl, rfl⟩

theorem isOver_onSessionClose (h : s.isOver = true) :
    s.onSessionClose.onCloseAcknowledged.isOver = true := by
  simp only [isOver, List.mem_cons, List.not_mem_nil, or_false, decide_eq_true_eq] at h
  rcases h with rfl | rfl <;> rfl

/-- The end of playback only acts in `speaking`. -/
theorem onPlaybackFinished_eq (interrupted : Bool) (s : CallFsmState) :
    s.onPlaybackFinished interrupted =
      if s = speaking then if interrupted then bargeIn else listening else s := by
  cases s <;> cases interrupted <;> rfl

end CallFsmState

end Yuviz.Conversation
