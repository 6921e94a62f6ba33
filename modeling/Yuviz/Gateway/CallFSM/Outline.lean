import Mathlib.Tactic.SplitIfs
import Yuviz.Gateway.CallFSM.Handlers

/-!
# What an event comes down to

The owner of a machine that does not react to its timers sees of an event the
state it leads to (`state_run`), and the calls of the handlers: the one attached
to the event, before or after the change of state (`outline_run`).
-/

namespace Yuviz.Gateway

namespace CallFSM

/-- A call that is not about a timer, less the trigger of a change of state. -/
def outline? : HandlerCall → Option HandlerCall
  | .scheduleTimer .. | .cancelTimer _ => none
  | .onStateChanged source target _ => some (.onStateChanged source target "")
  | c => some c

def outline (cs : List HandlerCall) : List HandlerCall := cs.filterMap outline?

namespace Event

/-- The handler of the event is called before its transition. -/
def handlerFirst : Event → Bool
  | .trigger (.transferRequested ..) | .trigger (.transferCompleted ..)
  | .trigger .conversationFinalized | .trigger (.sessionClose _)
  | .timerFired .connectionTimeout | .timerFired .noSpeechTimeout | .timerFired .playbackTimeout
  | .timerFired .goodbyeTimeout | .timerFired .transferTimeout | .timerFired .finalizingTimeout
  | .timerFired .rtpInactivity => true
  | _ => false

/-- The calls of an event. The two that run their handler though their
    transition is rejected are the last ones. -/
def outline (f : CallFSM) (e : Event) : List HandlerCall :=
  let change := (e.target? f).toList.map fun next => .onStateChanged f.state next ""
  let handler := (e.handler? f).toList
  if e.valid f then if e.handlerFirst then handler ++ change else change ++ handler
  else match e with
    | .trigger (.transferRequested ..) => if f.isActive then handler else []
    | .trigger (.sessionClose _) | .timerFired .rtpInactivity =>
      if f.state = .idle then handler else []
    | _ => []

/-- The state an event leads to. -/
def next (f : CallFSM) (e : Event) : CallFsmState :=
  if e.valid f then (e.target? f).getD f.state else f.state

end Event

variable {cfg : CallFsmTimerConfig} {f g : CallFSM} {n : FsmTimerId}

@[simp] theorem outline_nil : outline [] = [] := rfl

@[simp] theorem outline_append (cs ds : List HandlerCall) :
    outline (cs ++ ds) = outline cs ++ outline ds := List.filterMap_append

@[simp] theorem outline_cons (c : HandlerCall) (cs : List HandlerCall) :
    outline (c :: cs) = (outline? c).toList ++ outline cs := by
  cases h : outline? c <;> simp [outline, h]

@[simp] theorem outline_cancels (f : CallFSM) : outline (cancels f) = [] := by
  unfold cancels
  split <;> rfl

theorem outline_transition {next : CallFsmState} {trigger : String} {x : Exec} :
    outline (transition cfg next trigger x).calls = outline x.calls ++
      if isValid x.fsm.state next then [.onStateChanged x.fsm.state next ""] else [] := by
  split
  · next h =>
    have hm : Moves x next trigger (transition cfg next trigger x) := transition_moves h
    rcases hm.calls with ⟨-, -, -, hcs⟩ | ⟨_, _, -, -, -, -, hcs⟩ <;> simp [hcs, outline?]
  · next h => rw [transition_of_not_isValid h, List.append_nil]

theorem transition_energy {next : CallFsmState} {trigger : String} {x : Exec} :
    (transition cfg next trigger x).fsm.pendingGoodbyeEnergyDb = x.fsm.pendingGoodbyeEnergyDb := by
  by_cases h : isValid x.fsm.state next
  · have hm : Moves x next trigger (transition cfg next trigger x) := transition_moves h
    exact hm.energy
  · rw [transition_of_not_isValid h]

theorem state_doSessionClose_of_idle {reason : String} (h : g.state = .idle) :
    (doSessionClose cfg reason ⟨g, n, []⟩).fsm = g := by
  simp only [doSessionClose, h, reduceCtorEq, or_self, if_false]
  rw [transition_of_not_isValid (by rw [call_fsm, h]; decide)]
  rfl

theorem outline_doSessionClose {reason : String} :
    outline (doSessionClose cfg reason ⟨g, n, []⟩).calls =
      if isValid g.state .closing then [.onSessionClose reason, .onStateChanged g.state .closing ""]
      else if g.state = .idle then [.onSessionClose reason] else [] := by
  by_cases h : g.state = .closing ∨ g.state = .closed
  · rcases h with h | h <;> simp +decide [doSessionClose, h]
  · have hc : isValid g.state .closing = true ∨ g.state = .idle := by
      revert h
      cases g.state <;> decide
    simp only [doSessionClose, h, if_false, outline_transition, call_calls, call_fsm]
    rcases hc with hc | hc
    · simp only [hc, if_true]
      rfl
    · simp +decide [hc, outline?]

/-- The calls of a trigger. -/
theorem outline_run_trigger (t : Trigger) :
    outline (run cfg t ⟨f, n, []⟩).calls = Event.outline f (.trigger t) := by
  cases t <;> simp only [run, Event.outline, Event.valid, Event.target?, Event.handler?,
    Event.handlerFirst]
  case sessionStart =>
    rw [onSessionStart, outline_transition]
    by_cases h : f.state = .idle
    · simp +decide [h]
    · have hv : isValid f.state .connecting = false := by
        revert h
        cases f.state <;> decide
      simp [hv, h]
  case transferRequested q r =>
    simp only [onTransferRequested]
    by_cases ha : f.isActive = true
    · simp only [ha, Bool.not_true, Bool.false_eq_true, if_false, outline_transition, call_fsm]
      split <;> simp_all [outline?]
    · have hv : isValid f.state .transferring = false := by
        by_contra hv
        exact ha (isActive_of_isValid_transferring (by simpa using hv))
      simp [ha, hv]
  case sessionClose r =>
    rw [onSessionClose, outline_doSessionClose]
    rfl
  case speechStarted e =>
    simp only [onSpeechStarted]
    by_cases hw : f.state = .waitingForHangup
    · simp [hw, outline?]
    · by_cases h : f.state = .listening <;> simp +decide [hw, h, outline_transition, outline?]
  case speechEnded d e =>
    simp only [notifySpeechEnded]
    split_ifs <;> simp_all [outline?]
  case earlyBargeIn =>
    simp only [onEarlyBargeIn]
    by_cases h : f.state = .thinking ∨ f.state = .synthesizing
    · rcases h with h | h <;> simp +decide [h, outline_transition]
    · obtain ⟨h₁, h₂⟩ := not_or.1 h
      simp [h₁, h₂]
  all_goals
    simp only [onServiceReady, onSttFinal, onTextReady, onFirstAudioChunk, onPlaybackFinished,
      onCancelComplete, doCancelComplete, onTransferCompleted, doTransferCompleted,
      onConversationFinalized, doConversationFinalized, onCloseAcknowledged]
    split_ifs <;> simp_all +decide [outline_transition, outline?]

/-- The calls of the firing of a timer. -/
theorem outline_onTimerFired (type : FsmTimerType) :
    outline (onTimerFired cfg type ⟨f, n, []⟩).calls = Event.outline f (.timerFired type) := by
  cases type <;> simp only [onTimerFired, Event.outline, Event.valid, Event.target?, Event.handler?,
    Event.handlerFirst]
  case connectionTimeout | noSpeechTimeout | playbackTimeout | goodbyeTimeout =>
    split
    · next h => simp +decide [outline_doSessionClose, h]
    · next h => simp [h]
  case rtpInactivity =>
    rw [outline_doSessionClose]
    rfl
  case goodbyeConfirm =>
    by_cases h : f.state = .waitingForHangup ∧ f.awaitingGoodbyeConfirm = true
    · simp only [h, and_self, if_true, call_calls, outline_append, outline_transition,
        transition_energy]
      simp +decide [outline?]
    · simp [h]
  case bargeInWindow | transferTimeout | finalizingTimeout =>
    simp only [doCancelComplete, doTransferCompleted, doConversationFinalized]
    split_ifs <;> simp_all +decide [outline_transition, outline?]
  all_goals
    split_ifs <;> simp_all +decide [outline_transition]

theorem outline_run (e : Event) : outline (e.run cfg ⟨f, n, []⟩).calls = e.outline f := by
  cases e with
  | trigger t => exact outline_run_trigger t
  | timerFired type => exact outline_onTimerFired type

theorem state_run (e : Event) : (e.run cfg ⟨f, n, []⟩).fsm.state = e.next f := by
  unfold Event.next
  split
  · next h =>
    cases ht : e.target? f with
    | none => exact (run_of_target_none h ht).1
    | some next => exact (run_of_valid h ht).1.1
  · next h =>
    by_cases hm : Meets f e
    · rw [run_of_not_valid hm (by simpa using h)]
      cases e <;> rfl
    · -- The two events that run their handler though their transition is rejected.
      rcases e with t | type
      · cases t <;> first | exact absurd trivial hm | skip
        case transferRequested q r =>
          obtain ⟨ha, hv⟩ := Classical.not_imp.1 hm
          simp only [Event.run, run, onTransferRequested, ha, Bool.not_true, Bool.false_eq_true,
            if_false]
          rw [transition_of_not_isValid hv]
          rfl
        case sessionClose r =>
          exact congrArg CallFSM.state (state_doSessionClose_of_idle (not_not.1 hm))
      · cases type <;> first | exact absurd trivial hm | skip
        have hi : ({ f with activeTimer := kNoTimer } : CallFSM).state = .idle := not_not.1 hm
        exact (congrArg CallFSM.state (state_doSessionClose_of_idle hi)).trans rfl

namespace Event

/-- The calls of an event, in either order. -/
theorem outline_cases (f : CallFSM) (e : Event) :
    (e.valid f = true ∧
      (e.outline f = ((e.target? f).toList.map fun next => .onStateChanged f.state next "") ++
          (e.handler? f).toList ∨
        e.outline f = (e.handler? f).toList ++
          (e.target? f).toList.map fun next => .onStateChanged f.state next "")) ∨
    (e.valid f = false ∧ (e.outline f = (e.handler? f).toList ∨ e.outline f = [])) := by
  unfold outline
  by_cases hv : e.valid f = true
  · refine .inl ⟨hv, ?_⟩
    by_cases hh : e.handlerFirst = true <;> simp [hv, hh]
  · refine .inr ⟨by simpa using hv, ?_⟩
    simp only [hv, if_false, Bool.false_eq_true]
    split
    · exact ite_eq_or_eq _ _ _
    · exact ite_eq_or_eq _ _ _
    · exact ite_eq_or_eq _ _ _
    · exact .inr rfl

theorem isSemantic_of_handler {f : CallFSM} {e : Event} {c : HandlerCall}
    (h : e.handler? f = some c) : isSemantic c = true := by
  rcases e with t | type
  · cases t <;> simp only [handler?, reduceCtorEq, Option.some.injEq] at h
    case speechStarted | speechEnded | sttFinal | playbackFinished =>
      split at h <;> cases h
      rfl
    all_goals
      subst h
      rfl
  · cases type <;> cases h <;> rfl

/-! ## Ways between the states -/

section

variable {e : Event}

theorem next_cases (f : CallFSM) (e : Event) :
    e.next f = f.state ∨ e.valid f = true ∧ e.target? f = some (e.next f) := by
  unfold next
  by_cases hv : e.valid f = true
  · rw [if_pos hv]
    cases ht : e.target? f with
    | none => exact .inl rfl
    | some next => exact .inr ⟨hv, rfl⟩
  · rw [if_neg hv]
    exact .inl rfl

/-- The only way into `speaking`, -/
theorem eq_of_target_speaking (h : e.target? f = some .speaking) :
    e = .trigger .firstAudioChunk := by
  rcases e with t | type
  · cases t <;> simp_all [target?]
    all_goals revert h; split_ifs <;> simp
  · cases type <;> simp_all [target?]

/-- into `synthesizing`, -/
theorem eq_of_target_synthesizing (h : e.target? f = some .synthesizing) :
    e = .trigger .textReady := by
  rcases e with t | type
  · cases t <;> simp_all [target?]
    all_goals revert h; split_ifs <;> simp
  · cases type <;> simp_all [target?]

/-- and into `waitingForHangup`. -/
theorem eq_of_target_waitingForHangup (h : e.target? f = some .waitingForHangup) :
    ∃ timeout, e = .trigger (.playbackFinished false true timeout) := by
  rcases e with t | type
  · cases t <;> simp_all [target?]
    all_goals revert h; split_ifs <;> simp_all
  · cases type <;> simp_all [target?]

/-- The ways out of `speaking`. -/
theorem next_of_speaking (h : f.state = .speaking) :
    e.next f = .speaking ∨ e.next f = .closing ∨
      (∃ interrupted endCall timeout, e = .trigger (.playbackFinished interrupted endCall timeout)) ∨
        ∃ q r, e = .trigger (.transferRequested q r) := by
  rcases e with t | type
  · cases t <;> simp +decide [next, valid, target?, h]
  · cases type <;> simp +decide [next, valid, target?, h]

/-- A machine that closes does not open again. -/
theorem next_of_closing (h : f.state = .closing ∨ f.state = .closed) :
    e.next f = .closing ∨ e.next f = .closed := by
  rcases e with t | type
  · rcases h with h | h <;> cases t <;> simp +decide [next, valid, target?, h]
  · rcases h with h | h <;> cases type <;> simp +decide [next, valid, target?, h]

end

end Event

end CallFSM

end Yuviz.Gateway
