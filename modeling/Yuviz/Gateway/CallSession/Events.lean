import Yuviz.Gateway.CallFSM.Outline
import Yuviz.Gateway.CallSession

/-!
# The events of a session

What an event of the machine does to its session, and to the outside: the
handlers are given by the outline of the event (`fireWith_session`,
`fireWith_effects`), unless it completes a barge-in, which replays what was
captured (`fire_replay`).
-/

namespace Yuviz.Gateway

namespace CallSession

variable {cfg : CallFsmTimerConfig} {nested : CallFSM.Event → Exec → Exec} {x : Exec}

/-! ## Single calls -/

/-- The effects of a call of a handler, other than a replay. -/
def callEffects (s : CallSession) : HandlerCall → List SessionEffect
  | .onStateChanged _ target _ => if target = .recognizing then s.preroll.map .sendAudio else []
  | .onSpeechEnded durationMs energyDb => [.sendSpeechEnded durationMs energyDb]
  | .onPlaybackFinished interrupted => [.sendPlaybackFinished interrupted]
  | .onTransferRequested destination reason => [.post (.transferBody destination reason)]
  | .onTransferCompleted success destination =>
    let destination := if destination = "" then s.activeTransferDestination else destination
    s.activeTransfer.toList.map .shutdownTransfer ++
      [if success then .sendTransferCompleted destination s.activeTransferId
        else .sendTransferFailed destination s.pendingTransferDetail s.activeTransferId]
  | .onConversationFinalized => [.closeSession]
  | .onSessionClose reason =>
    .closeConnection :: if s.sipLegHandedOff then [] else [.hangup s.callId reason]
  | _ => []

/-- The fields a call of a handler leaves, other than a replay. -/
def afterCall (s : CallSession) : HandlerCall → CallSession
  | .onStateChanged _ target _ => if target = .recognizing then { s with preroll := [] } else s
  | .onTransferCompleted .. => { s with activeTransfer := none }
  | _ => s

/-- The call completes a barge-in that has been captured. -/
def Replays (s : CallSession) : HandlerCall → Prop
  | .onStateChanged source target _ =>
    source = .bargeIn ∧ target = .listening ∧ s.bargeInCapture = true
  | _ => False

/-- The preroll is sent once, and an empty one not at all. -/
theorem preroll_eq {s : CallSession} (h : s.preroll = []) : { s with preroll := [] } = s := by
  rw [← h]

theorem handle_eq {c : HandlerCall} (h : ¬Replays x.session c) :
    handle nested x c = ⟨afterCall x.session c, x.effects ++ callEffects x.session c⟩ := by
  cases c with
  | onStateChanged source target trigger =>
    have hr : ¬(source = .bargeIn ∧ target = .listening ∧ x.session.bargeInCapture = true) := h
    simp only [handle, onFsmStateChanged, afterCall, callEffects]
    by_cases ht : target = .recognizing
    · by_cases hp : x.session.preroll = []
      · simp [ht, hp, preroll_eq hp]
      · simp [ht, hp, sendAudio]
    · simp [ht, hr]
  | onTransferCompleted success destination =>
    simp only [handle, onTransferCompleted, afterCall, callEffects]
    cases ha : x.session.activeTransfer with
    | none => cases success <;> simp [emit, ← ha]
    | some type => cases success <;> simp [emit]
  | onSessionClose reason =>
    simp only [handle, onSessionClose, afterCall, callEffects]
    by_cases hh : x.session.sipLegHandedOff = true <;> simp [emit, hh]
  | _ => simp [handle, emit, afterCall, callEffects]

/-! ## Events -/

/-- The session reacts to the outline of the calls only. -/
theorem foldl_handle (cs : List HandlerCall) :
    cs.foldl (handle nested) x = (CallFSM.outline cs).foldl (handle nested) x := by
  induction cs generalizing x with
  | nil => rfl
  | cons c cs ih =>
    rw [List.foldl_cons, ih, CallFSM.outline_cons, List.foldl_append]
    cases c <;> rfl

/-- The session with the machine as an event leaves it. -/
def ran (cfg : CallFsmTimerConfig) (e : CallFSM.Event) (s : CallSession) : CallSession :=
  { s with
    fsm := (e.run cfg ⟨s.fsm, s.nextFsmTimerId, []⟩).fsm
    nextFsmTimerId := (e.run cfg ⟨s.fsm, s.nextFsmTimerId, []⟩).nextId }

theorem fireWith_eq (e : CallFSM.Event) : fireWith nested cfg e x =
    (e.outline x.session.fsm).foldl (handle nested) ⟨ran cfg e x.session, x.effects⟩ := by
  rw [fireWith, foldl_handle, CallFSM.outline_run]
  rfl

/-- The event completes a barge-in that has been captured. -/
def CompletesBargeIn (s : CallSession) (e : CallFSM.Event) : Prop :=
  s.fsm.state = .bargeIn ∧ e.valid s.fsm = true ∧ e.target? s.fsm = some .listening ∧
    s.bargeInCapture = true

section

variable {s : CallSession} {c : HandlerCall}

theorem not_replays_of_isSemantic (h : CallFSM.isSemantic c = true) : ¬Replays s c := by
  cases c <;> first | exact id | cases h

/-- A semantic call leaves the fields a change of state depends on. -/
theorem afterCall_of_isSemantic (h : CallFSM.isSemantic c = true) :
    (afterCall s c).preroll = s.preroll ∧ (afterCall s c).bargeInCapture = s.bargeInCapture := by
  cases c <;> first | exact ⟨rfl, rfl⟩ | cases h

/-- A change of state leaves the fields a semantic call depends on. -/
theorem callEffects_afterCall (h : CallFSM.isSemantic c = true) (source target : CallFsmState)
    (trigger : String) :
    callEffects (afterCall s (.onStateChanged source target trigger)) c = callEffects s c := by
  simp only [afterCall]
  split <;> cases c <;> first | rfl | cases h

end

/-- Two calls in a row. -/
theorem foldl_handle_pair {c d : HandlerCall} (hc : ¬Replays x.session c)
    (hd : ¬Replays (afterCall x.session c) d)
    (he : callEffects (afterCall x.session c) d = callEffects x.session d) :
    [c, d].foldl (handle nested) x =
      ⟨[c, d].foldl afterCall x.session, x.effects ++ [c, d].flatMap (callEffects x.session)⟩ := by
  have hd' : ¬Replays (⟨afterCall x.session c, x.effects ++ callEffects x.session c⟩ : Exec).session d :=
    hd
  simp [handle_eq hc, handle_eq hd', he]

/-- A call at most. -/
theorem foldl_handle_option {o : Option HandlerCall} (ho : ∀ c ∈ o, ¬Replays x.session c) :
    o.toList.foldl (handle nested) x =
      ⟨o.toList.foldl afterCall x.session, x.effects ++ o.toList.flatMap (callEffects x.session)⟩ := by
  cases o with
  | none => simp
  | some c => simp [handle_eq (ho c rfl)]

/-- An event that does not complete a barge-in. -/
theorem fireWith_of_not_completes {e : CallFSM.Event} (h : ¬CompletesBargeIn x.session e) :
    fireWith nested cfg e x =
      ⟨(e.outline x.session.fsm).foldl afterCall (ran cfg e x.session),
        x.effects ++ (e.outline x.session.fsm).flatMap (callEffects x.session)⟩ := by
  rw [fireWith_eq]
  let f := x.session.fsm
  have hchange (s : CallSession) (hs : s.bargeInCapture = x.session.bargeInCapture)
      (hv : e.valid f = true) {next : CallFsmState} (ht : e.target? f = some next) :
      ¬Replays s (.onStateChanged f.state next "") := by
    rintro ⟨hst, rfl, hc⟩
    exact h ⟨hst, hv, ht, hs ▸ hc⟩
  have hsem {c : HandlerCall} (hc : e.handler? f = some c) : CallFSM.isSemantic c = true :=
    CallFSM.Event.isSemantic_of_handler hc
  have hone : (e.handler? f).toList.foldl (handle nested) ⟨ran cfg e x.session, x.effects⟩ =
      ⟨(e.handler? f).toList.foldl afterCall (ran cfg e x.session),
        x.effects ++ (e.handler? f).toList.flatMap (callEffects x.session)⟩ :=
    foldl_handle_option fun c hc => not_replays_of_isSemantic (hsem hc)
  rcases CallFSM.Event.outline_cases f e with ⟨hv, ho | ho⟩ | ⟨-, ho | ho⟩ <;> rw [ho]
  · cases ht : e.target? f with
    | none => exact hone
    | some next =>
      cases hh : e.handler? f with
      | none =>
        refine foldl_handle_option (o := some _) ?_
        rintro _ ⟨⟩
        exact hchange _ rfl hv ht
      | some c =>
        exact foldl_handle_pair (hchange _ rfl hv ht) (not_replays_of_isSemantic (hsem hh))
          (callEffects_afterCall (hsem hh) _ _ _)
  · cases ht : e.target? f with
    | none => simpa using hone
    | some next =>
      cases hh : e.handler? f with
      | none =>
        refine foldl_handle_option (o := some _) ?_
        rintro _ ⟨⟩
        exact hchange _ rfl hv ht
      | some c =>
        obtain ⟨hp, hcap⟩ := @afterCall_of_isSemantic (ran cfg e x.session) c (hsem hh)
        refine foldl_handle_pair (not_replays_of_isSemantic (hsem hh)) (hchange _ hcap hv ht) ?_
        simp only [callEffects, hp]
  · exact hone
  · simp

/-- The call enters `recognizing`. -/
def isUtterance : HandlerCall → Bool
  | .onStateChanged _ target _ => target = .recognizing
  | _ => false

/-- The call is the outcome of a transfer. -/
def isOutcome : HandlerCall → Bool
  | .onTransferCompleted .. => true
  | _ => false

theorem foldl_afterCall (cs : List HandlerCall) (s : CallSession) :
    cs.foldl afterCall s = { s with
      preroll := if cs.any isUtterance then [] else s.preroll
      activeTransfer := if cs.any isOutcome then none else s.activeTransfer } := by
  induction cs generalizing s with
  | nil => rfl
  | cons c cs ih =>
    rw [List.foldl_cons, ih]
    cases c with
    | onStateChanged source target trigger =>
      by_cases ht : target = .recognizing <;> simp [afterCall, isUtterance, isOutcome, ht]
    | _ => simp [afterCall, isUtterance, isOutcome]

/-- The event enters `recognizing`. -/
def Enters (f : CallFSM) (e : CallFSM.Event) : Prop :=
  e.valid f = true ∧ e.target? f = some .recognizing

instance (f : CallFSM) (e : CallFSM.Event) : Decidable (Enters f e) :=
  inferInstanceAs (Decidable (_ ∧ _))

theorem any_isUtterance (f : CallFSM) (e : CallFSM.Event) :
    (e.outline f).any isUtterance = decide (Enters f e) := by
  have hsem (c : HandlerCall) (hc : c ∈ e.handler? f) : isUtterance c = false := by
    have hc := CallFSM.Event.isSemantic_of_handler hc
    cases c <;> first | rfl | cases hc
  have hhandler : (e.handler? f).toList.any isUtterance = false := by
    simpa using hsem
  rcases CallFSM.Event.outline_cases f e with ⟨hv, ho | ho⟩ | ⟨hv, ho | ho⟩ <;> rw [ho]
  · cases ht : e.target? f <;> simp [Enters, hv, ht, hhandler, isUtterance]
  · cases ht : e.target? f <;> simp [Enters, hv, ht, hhandler, isUtterance]
  · simp [Enters, hv, hhandler]
  · simp [Enters, hv]

/-- The session an event leaves that does not complete a barge-in. -/
theorem fireWith_session {e : CallFSM.Event} (h : ¬CompletesBargeIn x.session e) :
    (fireWith nested cfg e x).session = { ran cfg e x.session with
      preroll := if Enters x.session.fsm e then [] else x.session.preroll
      activeTransfer := if (e.outline x.session.fsm).any isOutcome then none
        else x.session.activeTransfer } := by
  rw [fireWith_of_not_completes h, foldl_afterCall, any_isUtterance]
  simp only [decide_eq_true_eq]
  rfl

theorem fireWith_effects {e : CallFSM.Event} (h : ¬CompletesBargeIn x.session e) :
    (fireWith nested cfg e x).effects =
      x.effects ++ (e.outline x.session.fsm).flatMap (callEffects x.session) := by
  rw [fireWith_of_not_completes h]

@[simp] theorem ran_state (e : CallFSM.Event) (s : CallSession) :
    (ran cfg e s).fsm.state = e.next s.fsm := CallFSM.state_run e

/-! ## The replay of a barge-in -/

/-- A barge-in is completed by the acknowledgement of the cancel, or by its timer. -/
theorem outline_of_completes {s : CallSession} {e : CallFSM.Event} (h : CompletesBargeIn s e) :
    e.outline s.fsm = [.onStateChanged .bargeIn .listening "", .onPlaybackFinished true] := by
  obtain ⟨hs, hv, ht, -⟩ := h
  rcases e with t | type
  · cases t <;> simp_all [CallFSM.Event.valid, CallFSM.Event.target?, CallFSM.Event.outline,
      CallFSM.Event.handler?, CallFSM.Event.handlerFirst]
  · cases type <;> simp_all [CallFSM.Event.valid, CallFSM.Event.target?, CallFSM.Event.outline,
      CallFSM.Event.handler?, CallFSM.Event.handlerFirst]

/-- The replay starts an utterance. -/
theorem fireNested_speechStarted (energyDb : Int) (h : x.session.fsm.state = .listening) :
    fireNested cfg (.trigger (.speechStarted energyDb)) x =
      ⟨{ ran cfg (.trigger (.speechStarted energyDb)) x.session with preroll := [] },
        x.effects ++ x.session.preroll.map .sendAudio⟩ := by
  have hn : ¬CompletesBargeIn x.session (.trigger (.speechStarted energyDb)) := by
    simp [CompletesBargeIn, h]
  have ho : CallFSM.Event.outline x.session.fsm (.trigger (.speechStarted energyDb)) =
      [.onStateChanged .listening .recognizing "", .onSpeechStarted energyDb] := by
    simp [CallFSM.Event.outline, CallFSM.Event.valid, CallFSM.Event.target?,
      CallFSM.Event.handler?, CallFSM.Event.handlerFirst, h]
  rw [fireNested, fireWith_of_not_completes hn, ho]
  simp [afterCall, callEffects]

/-- The replay ends the utterance. -/
theorem fireNested_speechEnded (durationMs : ℕ) (energyDb : Int)
    (h : x.session.fsm.state = .recognizing) :
    fireNested cfg (.trigger (.speechEnded durationMs energyDb)) x =
      ⟨ran cfg (.trigger (.speechEnded durationMs energyDb)) x.session,
        x.effects ++ [.sendSpeechEnded durationMs energyDb]⟩ := by
  have hn : ¬CompletesBargeIn x.session (.trigger (.speechEnded durationMs energyDb)) := by
    simp [CompletesBargeIn, h]
  have ho : CallFSM.Event.outline x.session.fsm (.trigger (.speechEnded durationMs energyDb)) =
      [.onSpeechEnded durationMs energyDb] := by
    simp [CallFSM.Event.outline, CallFSM.Event.valid, CallFSM.Event.target?,
      CallFSM.Event.handler?, CallFSM.Event.handlerFirst, h]
  rw [fireNested, fireWith_of_not_completes hn, ho]
  simp [afterCall, callEffects]

/-- What is captured is replayed, unless the caller has only been heard to stop. -/
def HasReplay (s : CallSession) : Prop := s.bargeInBuffer ≠ [] ∨ s.pendingSpeechEnded = false

instance (s : CallSession) : Decidable (HasReplay s) := inferInstanceAs (Decidable (_ ∨ _))

theorem replay_of_hasReplay (cfg : CallFsmTimerConfig) (h : x.session.fsm.state = .listening) (hr : HasReplay x.session) :
    (∃ f n, (replay (fireNested cfg) x).session = { x.session with
        fsm := f
        nextFsmTimerId := n
        preroll := []
        bargeInCapture := false
        bargeInBuffer := []
        pendingSpeechEnded := false } ∧ f.state = .recognizing) ∧
      (replay (fireNested cfg) x).effects = x.effects ++
        (x.session.preroll ++ x.session.bargeInBuffer).map .sendAudio ++
          if x.session.pendingSpeechEnded then
            [.sendSpeechEnded x.session.pendingSeDurationMs x.session.pendingSeEnergyDb]
          else [] := by
  let y : Exec := { x with session.bargeInCapture := false }
  have hy : y.session.fsm.state = .listening := h
  have hif : y.session.bargeInBuffer ≠ [] ∨ (!y.session.pendingSpeechEnded) = true := by
    simpa [HasReplay] using hr
  let a : Exec := fireNested cfg (.trigger (.speechStarted y.session.bargeInEnergyDb)) y
  let z : Exec := sendAudio a.session.bargeInBuffer a
  have ha : a = _ := fireNested_speechStarted y.session.bargeInEnergyDb hy
  have hz : z = ⟨{ ran cfg (.trigger (.speechStarted y.session.bargeInEnergyDb)) y.session with
      preroll := [] }, x.effects ++ (x.session.preroll ++ x.session.bargeInBuffer).map .sendAudio⟩ := by
    simp only [z, ha, sendAudio, List.map_append, List.append_assoc]
    rfl
  have hzs : z.session.fsm.state = .recognizing := by
    rw [hz]
    change (ran cfg _ y.session).fsm.state = _
    rw [ran_state, CallFSM.Event.next, CallFSM.Event.valid, CallFSM.Event.target?, hy]
    rfl
  have hrep : replay (fireNested cfg) x = { (if z.session.pendingSpeechEnded then
        fireNested cfg (.trigger (.speechEnded z.session.pendingSeDurationMs
          z.session.pendingSeEnergyDb)) z
      else z) with session.bargeInBuffer := [], session.pendingSpeechEnded := false } :=
    congrArg (fun w : Exec =>
      { w with session.bargeInBuffer := [], session.pendingSpeechEnded := false }) (if_pos hif)
  have hp : z.session.pendingSpeechEnded = x.session.pendingSpeechEnded := by rw [hz]; rfl
  rw [hrep, hp]
  split
  · rw [fireNested_speechEnded _ _ hzs, hz]
    rw [hz] at hzs
    refine ⟨⟨_, _, rfl, ?_⟩, rfl⟩
    rw [ran_state, CallFSM.Event.next]
    split
    · exact hzs
    · exact hzs
  · rw [hz]
    rw [hz] at hzs
    exact ⟨⟨_, _, rfl, hzs⟩, by simp⟩

theorem fire_of_completes {e : CallFSM.Event} (h : CompletesBargeIn x.session e) :
    (∃ f n, (fire cfg e x).session = { x.session with
        fsm := f
        nextFsmTimerId := n
        preroll := if HasReplay x.session then [] else x.session.preroll
        bargeInCapture := false
        bargeInBuffer := []
        pendingSpeechEnded := false } ∧
        f.state = if HasReplay x.session then .recognizing else .listening) ∧
      (fire cfg e x).effects = x.effects ++
        (if HasReplay x.session then
          (x.session.preroll ++ x.session.bargeInBuffer).map .sendAudio ++
            if x.session.pendingSpeechEnded then
              [.sendSpeechEnded x.session.pendingSeDurationMs x.session.pendingSeEnergyDb]
            else []
        else []) ++ [.sendPlaybackFinished true] := by
  have hst : (ran cfg e x.session).fsm.state = .listening := by
    rw [ran_state, CallFSM.Event.next, h.2.1, h.2.2.1]
    rfl
  have heq : fire cfg e x =
      emit (.sendPlaybackFinished true) (replay (fireNested cfg) ⟨ran cfg e x.session, x.effects⟩) := by
    rw [fire, fireWith_eq, outline_of_completes h]
    have hc : (ran cfg e x.session).bargeInCapture = true := h.2.2.2
    simp [handle, onFsmStateChanged, hc]
  rw [heq]
  by_cases hr : HasReplay x.session
  · let y : Exec := ⟨ran cfg e x.session, x.effects⟩
    have hy : HasReplay y.session := hr
    obtain ⟨⟨f, n, hsess, hf⟩, heff⟩ := replay_of_hasReplay cfg hst hy
    refine ⟨⟨f, n, ?_, by rw [hf, if_pos hr]⟩, ?_⟩
    · rw [if_pos hr]
      exact hsess
    · rw [if_pos hr]
      change (replay (fireNested cfg) y).effects ++ _ = _
      rw [heff, List.append_assoc y.effects]
      rfl
  · have hif : ¬((ran cfg e x.session).bargeInBuffer ≠ [] ∨
        (!(ran cfg e x.session).pendingSpeechEnded) = true) := by
      simpa [HasReplay, ran] using hr
    have hrep : replay (fireNested cfg) ⟨ran cfg e x.session, x.effects⟩ =
        ⟨{ ran cfg e x.session with
          bargeInCapture := false, bargeInBuffer := [], pendingSpeechEnded := false }, x.effects⟩ :=
      congrArg (fun w : Exec =>
        { w with session.bargeInBuffer := [], session.pendingSpeechEnded := false }) (if_neg hif)
    rw [hrep]
    refine ⟨⟨_, (ran cfg e x.session).nextFsmTimerId, ?_, by rw [if_neg hr]; exact hst⟩,
      by simp [emit, if_neg hr]⟩
    rw [if_neg hr]
    rfl

end CallSession

end Yuviz.Gateway
