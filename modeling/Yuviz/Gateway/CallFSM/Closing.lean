import Yuviz.Gateway.CallFSM.Handlers

/-!
# The end of a machine

What every step of a trigger preserves, a trigger does (`Stable.run`). So the timers that
it schedules have the ids of the counter, in turn (`consecutive_run`), and a machine that
has left the idle state is not idle again (`state_ne_idle_run`).

A machine that is closing or closed schedules no timer, whatever happens (`Ended.run`).
-/

namespace Yuviz.Gateway.CallFSM

variable {cfg : CallFsmTimerConfig} {f : CallFSM} {n : FsmTimerId}

/-- The id of the timer that a call schedules. -/
def scheduledId : HandlerCall → Option FsmTimerId
  | .scheduleTimer id .. => some id
  | _ => none

def scheduledIds (cs : List HandlerCall) : List FsmTimerId := cs.filterMap scheduledId

@[simp] theorem scheduledIds_nil : scheduledIds [] = [] := rfl

@[simp] theorem scheduledIds_append (cs ds : List HandlerCall) :
    scheduledIds (cs ++ ds) = scheduledIds cs ++ scheduledIds ds := List.filterMap_append

theorem scheduledIds_cons_of_none {c : HandlerCall} (cs : List HandlerCall)
    (hc : scheduledId c = none) : scheduledIds (c :: cs) = scheduledIds cs :=
  List.filterMap_cons_none hc

/-- Cancelling schedules nothing. -/
@[simp] theorem scheduledIds_cancels : scheduledIds f.cancels = [] := by
  rw [cancels]
  split
  · rfl
  · rfl

/-! ## What every step preserves -/

/-- `P` is preserved by every step of a trigger. -/
structure Stable (P : Exec → Prop) : Prop where
  call : ∀ c x, scheduledId c = none → P x → P (call c x)
  arm : ∀ type delay x, P x → P (arm type delay x)
  fsm : ∀ (g : CallFSM) (x : Exec), g.state = x.fsm.state → P x → P { x with fsm := g }
  enter : ∀ next v (x : Exec), next ≠ .idle → P x →
    P { x with fsm.state := next, fsm.visit := v }

namespace Stable

variable {P : Exec → Prop} (h : Stable P) {x : Exec}
include h

/-- To cancel the active timer is a call and an update of the machine. -/
theorem cancelActive (hx : P x) : P (cancelActive x) := by
  rw [CallFSM.cancelActive]
  split
  · exact h.fsm _ _ rfl (h.call _ _ rfl hx)
  · exact hx

/-- What a state does when it is entered is to arm its timer. -/
theorem onEnter {s : CallFsmState} (hx : P x) : P (onEnter cfg s x) := by
  rcases onEnter_cases cfg s x with ⟨-, he⟩ | ⟨type, delay, o, -, -, he⟩
  · rwa [he]
  · rw [he]
    exact h.fsm _ _ rfl (h.arm type delay x hx)

/-- A transition cancels, enters the next state and tells of it. -/
theorem transition {next : CallFsmState} {trigger : String} (hnext : next ≠ .idle) (hx : P x) :
    P (transition cfg next trigger x) := by
  rw [CallFSM.transition]
  split
  · exact h.call _ _ rfl (h.onEnter (h.enter _ _ _ hnext (h.cancelActive hx)))
  · exact hx

theorem doSessionClose {reason : String} (hx : P x) : P (doSessionClose cfg reason x) := by
  rw [CallFSM.doSessionClose]
  split
  · exact hx
  · exact h.transition (by simp) (h.call _ _ rfl hx)

theorem doCancelComplete (hx : P x) : P (doCancelComplete cfg x) := by
  rw [CallFSM.doCancelComplete]
  split
  · exact hx
  · exact h.call _ _ rfl (h.transition (by simp) hx)

theorem doTransferCompleted {success : Bool} {id : String} (hx : P x) :
    P (doTransferCompleted cfg success id x) := by
  rw [CallFSM.doTransferCompleted]
  split
  · exact hx
  · dsimp only
    split
    · exact h.transition (by simp) (h.call _ _ rfl hx)
    · exact h.transition (by simp) (h.call _ _ rfl hx)

theorem doConversationFinalized (hx : P x) : P (doConversationFinalized cfg x) := by
  rw [CallFSM.doConversationFinalized]
  split
  · exact hx
  · exact h.transition (by simp) (h.call _ _ rfl hx)

/-- A timer that fires closes the session or makes a transition, if it is of the state. -/
theorem onTimerFired {type : FsmTimerType} (hx : P x) : P (onTimerFired cfg type x) := by
  rw [CallFSM.onTimerFired.eq_def]
  have hx' : P { x with fsm.activeTimer := kNoTimer } := h.fsm _ _ rfl hx
  cases type with
  | connectionTimeout | noSpeechTimeout | playbackTimeout | goodbyeTimeout =>
    dsimp only
    split
    · exact h.doSessionClose hx'
    · exact hx'
  | maxUtteranceTimeout | sttTimeout | llmTimeout | ttsTimeout | closeTimeout =>
    dsimp only
    split
    · exact h.transition (by simp) hx'
    · exact hx'
  | goodbyeConfirm =>
    dsimp only
    split
    · exact h.call _ _ rfl (h.transition (by simp) (h.fsm _ x rfl hx))
    · exact hx'
  | bargeInWindow =>
    dsimp only
    split
    · exact h.doCancelComplete hx'
    · exact hx'
  | transferTimeout =>
    dsimp only
    split
    · exact h.doTransferCompleted hx'
    · exact hx'
  | finalizingTimeout =>
    dsimp only
    split
    · exact h.doConversationFinalized hx'
    · exact hx'
  | rtpInactivity => exact h.doSessionClose hx'

/-- A trigger makes transitions, calls and timers only. -/
theorem runTrigger (t : Trigger) (hx : P x) : P (run cfg t x) := by
  cases t with
  | sessionStart => exact h.transition (by simp) hx
  | serviceReady =>
    simp only [CallFSM.run, onServiceReady]
    split
    · exact hx
    · exact h.transition (by simp) hx
  | speechStarted e =>
    simp only [CallFSM.run, onSpeechStarted]
    split
    · exact h.fsm _ _ rfl (h.arm _ _ _ (h.cancelActive hx))
    split
    · exact hx
    · exact h.call _ _ rfl (h.transition (by simp) hx)
  | speechEnded d e =>
    simp only [CallFSM.run, notifySpeechEnded]
    split
    · exact h.arm _ _ _ (h.cancelActive (h.fsm _ _ rfl hx))
    split
    · exact hx
    · exact h.call _ _ rfl (h.arm _ _ _ (h.cancelActive hx))
  | sttFinal text c =>
    simp only [CallFSM.run, onSttFinal]
    split
    · exact hx
    split
    · exact h.transition (by simp) hx
    · exact h.call _ _ rfl (h.transition (by simp) hx)
  | textReady =>
    simp only [CallFSM.run, onTextReady]
    split
    · exact hx
    · exact h.transition (by simp) hx
  | firstAudioChunk =>
    simp only [CallFSM.run, onFirstAudioChunk]
    split
    · exact hx
    · exact h.transition (by simp) hx
  | playbackFinished i e o =>
    simp only [CallFSM.run, onPlaybackFinished]
    split
    · exact hx
    split
    · exact h.transition (by simp) hx
    split
    · exact h.call _ _ rfl (h.transition (by simp) (h.fsm _ _ rfl hx))
    · exact h.call _ _ rfl (h.transition (by simp) hx)
  | cancelComplete => exact h.doCancelComplete hx
  | earlyBargeIn =>
    simp only [CallFSM.run, onEarlyBargeIn]
    split
    · exact hx
    · exact h.transition (by simp) hx
  | transferRequested q r =>
    simp only [CallFSM.run, onTransferRequested]
    split
    · exact hx
    · exact h.transition (by simp) (h.call _ _ rfl hx)
  | transferCompleted success id => exact h.doTransferCompleted hx
  | conversationFinalized => exact h.doConversationFinalized hx
  | sessionClose r => exact h.doSessionClose hx
  | closeAcknowledged =>
    simp only [CallFSM.run, onCloseAcknowledged]
    split
    · exact hx
    · exact h.transition (by simp) hx

/-- So does every event. -/
theorem run (e : Event) (hx : P x) : P (e.run cfg x) := by
  cases e with
  | trigger t => exact h.runTrigger t hx
  | timerFired type => exact h.onTimerFired hx

end Stable

/-- The timers scheduled have the ids from `n` on. -/
structure Consecutive (n : FsmTimerId) (x : Exec) : Prop where
  le : n ≤ x.nextId
  ids : scheduledIds x.calls = List.range' n (x.nextId - n)

/-- A timer that is armed has the next id. -/
theorem stable_consecutive (n : FsmTimerId) : Stable (Consecutive n) where
  call c x hc h := by
    refine ⟨h.le, ?_⟩
    rw [call_calls, scheduledIds_append, scheduledIds_cons_of_none _ hc, scheduledIds_nil,
      List.append_nil]
    exact h.ids
  arm type delay x h := by
    refine ⟨Nat.le_succ_of_le h.le, ?_⟩
    have hsub : x.nextId + 1 - n = x.nextId - n + 1 := Nat.succ_sub h.le
    rw [arm_calls, arm_nextId, scheduledIds_append, h.ids, hsub, List.range'_concat, Nat.one_mul,
      Nat.add_sub_cancel' h.le]
    rfl
  fsm _ _ _ h := ⟨h.le, h.ids⟩
  enter _ _ _ _ h := ⟨h.le, h.ids⟩

/-- An event schedules timers with the ids of the counter, in turn. -/
theorem consecutive_run (e : Event) : Consecutive n (e.run cfg ⟨f, n, []⟩) :=
  (stable_consecutive n).run e ⟨Nat.le_refl n, by rw [Nat.sub_self]; rfl⟩

/-- No event makes a machine idle again. -/
theorem state_ne_idle_run (e : Event) (h : f.state ≠ .idle) :
    (e.run cfg ⟨f, n, []⟩).fsm.state ≠ .idle := by
  have hstable : Stable fun x => x.fsm.state ≠ .idle :=
    ⟨fun _ _ _ h => h, fun _ _ _ h => h, fun _ _ heq h => heq ▸ h, fun _ _ _ hnext _ => hnext⟩
  exact hstable.run e h

/-! ## The machine that closes -/

def Ended (f : CallFSM) : Prop := f.state = .closing ∨ f.state = .closed

/-- A machine that is started is not idle any more. -/
theorem state_run_sessionStart (h : f.state = .idle) :
    (Event.run cfg (.trigger .sessionStart) ⟨f, n, []⟩).fsm.state ≠ .idle := by
  have hvalid : Event.valid f (.trigger .sessionStart) = true := by simp [Event.valid, h]
  rw [(run_of_valid hvalid rfl).1.1]
  simp

/-- A machine that is told to close is closing, or has been. -/
theorem ended_run_sessionClose {reason : String} (h : f.state ≠ .idle) :
    Ended (Event.run cfg (.trigger (.sessionClose reason)) ⟨f, n, []⟩).fsm := by
  cases hvalid : Event.valid f (.trigger (.sessionClose reason)) with
  | true => exact .inl (run_of_valid hvalid rfl).1.1
  | false =>
    have hm : Meets f (.trigger (.sessionClose reason)) := h
    rw [run_of_not_valid hm hvalid]
    have hclosing : isValid f.state .closing = false := hvalid
    revert h hclosing
    simp only [Ended, Event.found]
    cases f.state <;> decide

/-- The transition to the closed state schedules nothing. -/
theorem scheduledIds_transition_closed {trigger : String} {x : Exec} :
    scheduledIds (transition cfg .closed trigger x).calls = scheduledIds x.calls := by
  by_cases h : isValid x.fsm.state .closed
  · have hmoves : Moves x .closed trigger (transition cfg .closed trigger x) := transition_moves h
    rcases hmoves.calls with ⟨-, -, -, hcalls⟩ | ⟨type, -, htype, -⟩
    · rw [hcalls, scheduledIds_append, scheduledIds_append, scheduledIds_cancels]
      simp [scheduledIds, scheduledId]
    · cases htype
  · rw [transition_of_not_isValid h]

/-- An event that the machine does not ignore when it closes. -/
theorem eq_of_valid_of_ended {e : Event} (h : Ended f) (hvalid : e.valid f = true) :
    f.state = .closing ∧ (e = .trigger .closeAcknowledged ∨ e = .timerFired .closeTimeout) := by
  cases e with
  | trigger t =>
    cases t <;> rcases h with h | h <;>
      simp [Event.valid, h, isValid, kValidTransitions] at hvalid ⊢
  | timerFired type =>
    cases type <;> rcases h with h | h <;>
      simp [Event.valid, h, isValid, kValidTransitions] at hvalid ⊢

/-- A machine that closes may be told anything. -/
theorem Ended.meets {e : Event} (h : Ended f) : Meets f e := by
  have hidle : f.state ≠ .idle := by
    rcases h with h | h
    · simp [h]
    · simp [h]
  have hactive : f.isActive = false := by
    rcases h with h | h
    · simp [isActive, h]
    · simp [isActive, h]
  rw [Meets.eq_def]
  split
  · intro hf
    cases hactive.symm.trans hf
  · exact hidle
  · exact hidle
  · trivial

/-- A machine that closes stays closed or closing, and schedules no timer. -/
theorem Ended.run (h : Ended f) (e : Event) :
    scheduledIds (e.run cfg ⟨f, n, []⟩).calls = [] ∧ Ended (e.run cfg ⟨f, n, []⟩).fsm := by
  cases hvalid : e.valid f with
  | true =>
    obtain ⟨hclosing, rfl | rfl⟩ := eq_of_valid_of_ended h hvalid
    · refine ⟨?_, .inr (run_of_valid hvalid rfl).1.1⟩
      rw [Event.run, CallFSM.run, onCloseAcknowledged, if_neg (by simp [hclosing])]
      exact scheduledIds_transition_closed
    · refine ⟨?_, .inr (run_of_valid hvalid rfl).1.1⟩
      rw [Event.run, onTimerFired]
      simp only [hclosing, if_true]
      exact scheduledIds_transition_closed
  | false =>
    rw [run_of_not_valid h.meets hvalid]
    refine ⟨rfl, ?_⟩
    cases e with
    | trigger t => exact h
    | timerFired type => exact h

end Yuviz.Gateway.CallFSM
