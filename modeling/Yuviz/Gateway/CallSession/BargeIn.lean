import Yuviz.Gateway.CallSession.Steps

/-!
# The capture of a barge-in

What the caller says in a barge-in is captured, and replayed when the machine
leaves `bargeIn` for `listening`. The capture outlives the barge-in if the
machine leaves `speaking` for another state (`reachable_recognizing`).
-/

namespace Yuviz.Gateway

namespace CallSession

variable {cfg : CallFsmTimerConfig} {playing : Bool} {item : SessionItem} {x : Exec}
  {s : CallSession}

/-- The item is an onset of speech. -/
def isOnset : SessionItem → Bool
  | .speechStarted _ => true
  | _ => false

/-- The item starts a capture. -/
def StartsCapture (s : CallSession) (item : SessionItem) : Prop :=
  isOnset item = true ∧ s.fsm.state ∈ [CallFsmState.thinking, .synthesizing, .speaking]

instance (s : CallSession) (item : SessionItem) : Decidable (StartsCapture s item) :=
  inferInstanceAs (Decidable (_ ∧ _))

/-- An onset that starts no capture may cancel the playback. -/
theorem prepare_speechStarted {energyDb : Int}
    (h : x.session.fsm.state ∉ [CallFsmState.thinking, .synthesizing, .speaking]) :
    prepare playing (.speechStarted energyDb) x = if playing then emit .cancelPlayback x else x := by
  simp only [List.mem_cons, List.not_mem_nil, or_false, not_or] at h
  obtain ⟨ht, hs, hsp⟩ := h
  simp only [prepare]

/-- The start of a capture. -/
theorem prepare_of_startsCapture (playing : Bool) (h : StartsCapture x.session item) :
    ∃ energyDb, (prepare playing item x).session = (startCapture energyDb x).session := by
  obtain ⟨ho, hs⟩ := h
  cases item <;> cases ho
  case speechStarted energyDb =>
    refine ⟨energyDb, ?_⟩
    simp only [List.mem_cons, List.not_mem_nil, or_false] at hs
    rcases hs with hs | hs | hs <;> cases playing <;> simp [prepare, hs, emit]

/-- An item that starts no capture leaves the flag. -/
theorem prepare_bargeInCapture (h : ¬StartsCapture x.session item) :
    (prepare playing item x).session.bargeInCapture = x.session.bargeInCapture := by
  cases item
  case speechStarted energyDb =>
    rw [prepare_speechStarted fun hs => h ⟨rfl, hs⟩]
    split_ifs <;> rfl
  case audioFrame frame =>
    simp only [prepare, onAudioFrame]
    split_ifs <;> rfl
  case transferBody destination reason =>
    simp only [prepare]
    split_ifs <;> rfl
  case speechEnded =>
    simp only [prepare]
    split_ifs <;> rfl
  all_goals rfl

/-- The start of a capture keeps the machine in `speaking`, or leads to `bargeIn`. -/
theorem nextState_of_startsCapture (h : StartsCapture s item) :
    nextState s item = .bargeIn ∨ s.fsm.state = .speaking ∧ nextState s item = .speaking := by
  obtain ⟨ho, hs⟩ := h
  cases item <;> cases ho
  simp only [List.mem_cons, List.not_mem_nil, or_false] at hs
  rcases hs with hs | hs | hs
  · exact .inl (by simp [nextState, SessionItem.event?, hs, CallFSM.Event.next, CallFSM.Event.valid,
      CallFSM.Event.target?])
  · exact .inl (by simp [nextState, SessionItem.event?, hs, CallFSM.Event.next, CallFSM.Event.valid,
      CallFSM.Event.target?])
  · exact .inr ⟨hs, by simp [nextState, SessionItem.event?, hs]⟩

/-- The item takes the machine from `speaking`, but for a barge-in or a close. -/
def endsSpeaking : SessionItem → Bool
  | .playbackFinished _ | .transferRequest _ => true
  | _ => false

/-- The states a capture may be up in. -/
def captureStates : List CallFsmState := [.speaking, .bargeIn, .closing, .closed]

/-- A capture is up only in these states. -/
def Captures (s : CallSession) : Prop := s.bargeInCapture = true → s.fsm.state ∈ captureStates

/-- From these states, an event leads to one of them, unless it ends the speech
    of the agent, or the barge-in. -/
theorem next_mem_captureStates {f : CallFSM} {e : CallFSM.Event} (hs : f.state ∈ captureStates)
    (hsp : f.state = .speaking →
      (∀ endCall timeout, e ≠ .trigger (.playbackFinished false endCall timeout)) ∧
        ∀ q r, e ≠ .trigger (.transferRequested q r))
    (hb : f.state = .bargeIn → e ≠ .trigger .cancelComplete ∧ e ≠ .timerFired .bargeInWindow) :
    e.next f ∈ captureStates := by
  simp only [captureStates, List.mem_cons, List.not_mem_nil, or_false] at hs
  rcases e with t | type
  · rcases hs with hs | hs | hs | hs <;> cases t <;>
      simp_all +decide [CallFSM.Event.next, CallFSM.Event.valid, CallFSM.Event.target?]
  · rcases hs with hs | hs | hs | hs <;> cases type <;>
      simp_all +decide [CallFSM.Event.next, CallFSM.Event.valid, CallFSM.Event.target?]

/-- The items of the events that are left out. -/
theorem item_of_event {e : CallFSM.Event} (he : item.event? s = some e) :
    (∀ endCall timeout, e = .trigger (.playbackFinished false endCall timeout) →
        endsSpeaking item = true) ∧
      (∀ q r, e = .trigger (.transferRequested q r) → endsSpeaking item = true) ∧
      (e = .trigger .cancelComplete → item = .cancelAck) ∧
      (e = .timerFired .bargeInWindow → item = .timerFired .bargeInWindow) := by
  cases item
  case speechStarted energyDb =>
    simp only [SessionItem.event?] at he
    split at he <;> cases he <;> simp
  case transferBody | terminate | speechEnded =>
    simp only [SessionItem.event?] at he
    split_ifs at he
    cases he
    simp
  case endCall | audioFrame => cases he
  all_goals
    cases he
    simp [endsSpeaking]

/-- The item does not end the speech of the agent while the caller is being
    captured. -/
def KeepsCapture (s : CallSession) (item : SessionItem) : Prop :=
  s.bargeInCapture = true → s.fsm.state = .speaking → endsSpeaking item = false

instance (s : CallSession) (item : SessionItem) : Decidable (KeepsCapture s item) :=
  inferInstanceAs (Decidable (_ → _ → _))

theorem Captures.process (h : Captures s) (hk : KeepsCapture s item) :
    Captures (process cfg playing item ⟨s, []⟩).session := by
  by_cases hc : Completes s item
  · -- The capture ends with the barge-in.
    obtain ⟨⟨f, n, hs, -⟩, -⟩ := process_of_completes cfg playing (x := ⟨s, []⟩) hc
    rw [hs]
    exact fun hcap => absurd hcap Bool.false_ne_true
  · obtain ⟨⟨f, n, hs, hf⟩, -⟩ :=
      process_of_not_completes cfg playing (x := ⟨s, []⟩) hc
    rw [hs]
    intro hcap
    change f.state ∈ captureStates
    rw [hf]
    by_cases hst : StartsCapture s item
    · rcases nextState_of_startsCapture hst with hn | ⟨-, hn⟩ <;> simp [hn, captureStates]
    · have hcap : s.bargeInCapture = true := by
        rwa [prepare_bargeInCapture (x := ⟨s, []⟩) hst] at hcap
      have hmem : s.fsm.state ∈ captureStates := h hcap
      cases he : item.event? s with
      | none => rwa [nextState_of_no_event he]
      | some e =>
        rw [nextState_of_event he]
        obtain ⟨hfin, htr, hack, hwin⟩ := item_of_event he
        refine next_mem_captureStates hmem (fun hsp => ?_) fun hb => ?_
        · have hends : ¬endsSpeaking item = true := by simp [hk hcap hsp]
          exact ⟨fun _ _ he => hends (hfin _ _ he), fun _ _ he => hends (htr _ _ he)⟩
        · exact ⟨fun he => hc ⟨hb, hcap, .inl (hack he)⟩, fun he => hc ⟨hb, hcap, .inr (hwin he)⟩⟩

end CallSession

namespace SessionThreads

open CallSession

variable {cfg : CallFsmTimerConfig} {maxFrames : ℕ} {callId callerDid : String} {s : SessionThreads}

theorem reachable_captures
    (hs : (system cfg maxFrames callId callerDid).ReachableIf (Processes KeepsCapture) s) :
    Captures s.session :=
  session_invariant (fun h => absurd h Bool.false_ne_true) (fun _ _ h => h)
    (fun _ _ _ h hk => h.process hk) hs

/-- An utterance is not captured: in every run that does not end the speech of
    the agent while the caller is being captured, its frames and its end are sent. -/
theorem reachable_recognizing
    (hs : (system cfg maxFrames callId callerDid).ReachableIf (Processes KeepsCapture) s)
    (hr : s.session.fsm.state = .recognizing) :
    s.session.bargeInCapture = false ∧
      (∀ durationMs energyDb, (processed cfg s (.speechEnded durationMs energyDb)).effects =
        [.sendSpeechEnded durationMs energyDb]) ∧
      ∀ frame, processed cfg s (.audioFrame frame) = ⟨s.session, [.sendAudio frame]⟩ := by
  have hcap : s.session.bargeInCapture = false := by
    by_contra hcap
    have hmem := reachable_captures hs (by simpa using hcap)
    simp [hr, captureStates] at hmem
  refine ⟨hcap, fun durationMs energyDb => ?_, fun frame => ?_⟩
  · have hn : ¬Completes s.session (.speechEnded durationMs energyDb) := by simp [Completes]
    rw [processed, (process_of_not_completes _ _ (x := ⟨s.session, []⟩) hn).2]
    simp [prepare, hcap, CallSession.calls, SessionItem.event?, CallFSM.Event.outline, hr,
      CallFSM.Event.valid, CallFSM.Event.target?, CallFSM.Event.handler?,
      CallFSM.Event.handlerFirst, callEffects]
  · simp [processed, CallSession.process, onAudioFrame, hr, emit]

/-- The first turn of a call, up to its first frames. -/
def firstTurn : List Label :=
  [.control, .message .serviceReady, .control, .event (.speechStarted 0), .control,
    .message (.sttResult "hello" 1), .control, .message (.ttsStarted 1), .control,
    .ttsChunk 1 0 true, .push, .push, .control]

/-- The caller barges in, and the cancel is acknowledged. -/
theorem reachable_recognizing_bargeIn :
    ∃ s, (system {} 100 "call" "caller").Reachable s ∧ s.session.fsm.state = .recognizing ∧
      s.session.bargeInCapture = false := by
  have hexec : ((system {} 100 "call" "caller").execIf (Processes KeepsCapture)
      (system {} 100 "call" "caller").init
      (firstTurn ++ ([.event (.speechStarted 0), .control, .control, .message .cancelAck,
        .control] : List Label))).map (fun s => s.session.fsm.state) = some .recognizing := by
    decide
  obtain ⟨s, hs, hr⟩ := Option.map_eq_some_iff.1 hexec
  have hs : (system {} 100 "call" "caller").ReachableIf (Processes KeepsCapture) s :=
    System.ReachableIf.execIf .init hs
  exact ⟨s, hs.reachable, hr, (reachable_recognizing hs hr).1⟩

/-- The caller barges in just before the speech of the agent ends by itself, and
    then speaks again. -/
theorem not_reachable_recognizing :
    ¬∀ s, (system {} 100 "call" "caller").Reachable s →
      s.session.fsm.state = .recognizing → s.session.bargeInCapture = false := by
  intro h
  have hexec : ((system {} 100 "call" "caller").exec (system {} 100 "call" "caller").init
      (firstTurn ++ ([.event (.speechStarted 0), .pop, .drained, .control, .control, .control,
        .event (.speechStarted 0), .control] : List Label))).map
        (fun s => (s.session.fsm.state, s.session.bargeInCapture)) = some (.recognizing, true) := by
    decide
  obtain ⟨s, hs, hr⟩ := Option.map_eq_some_iff.1 hexec
  have hcap := h s (System.Reachable.exec .init hs) (congrArg Prod.fst hr)
  exact absurd (hcap.symm.trans (congrArg Prod.snd hr)) Bool.false_ne_true

end SessionThreads

end Yuviz.Gateway
