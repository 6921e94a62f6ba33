import Mathlib
import Yuviz.Gateway.CallSession.Steps
import Yuviz.Gateway.Transport.GrpcConversationTransport

/-!
# The messages of a session

An item sends frames, and behind them control messages, if it `Notifies` the
Conversation Service. What counts for the control messages to find room in the
send queue is how many messages the item sends `ahead` of the last one
(`fits_process`).
-/

namespace Yuviz.Gateway

open GrpcConversationTransport

namespace CallSession

/-- The item sends a control message. -/
def Notifies (s : CallSession) : SessionItem → Prop
  | .speechStarted _ => s.fsm.state ∈ [CallFsmState.thinking, .synthesizing, .speaking]
  | .speechEnded .. => s.fsm.state = .recognizing ∧ s.bargeInCapture = false
  | .playbackFinished _ => s.fsm.state = .speaking
  | .cancelAck | .timerFired .bargeInWindow => s.fsm.state = .bargeIn
  | .transferBody .. => True
  | .transferOutcome .. | .timerFired .transferTimeout => s.fsm.state = .transferring
  | _ => False

instance (s : CallSession) : DecidablePred (Notifies s)
  | .speechStarted _ =>
    inferInstanceAs (Decidable (_ ∈ [CallFsmState.thinking, .synthesizing, .speaking]))
  | .speechEnded .. => inferInstanceAs (Decidable (_ ∧ _))
  | .playbackFinished _ => inferInstanceAs (Decidable (_ = CallFsmState.speaking))
  | .cancelAck | .timerFired .bargeInWindow =>
    inferInstanceAs (Decidable (_ = CallFsmState.bargeIn))
  | .transferBody .. => inferInstanceAs (Decidable True)
  | .transferOutcome .. | .timerFired .transferTimeout =>
    inferInstanceAs (Decidable (_ = CallFsmState.transferring))
  | .sessionStart | .serviceReady | .sttResult .. | .ttsStarted _ | .firstAudioChunk _
  | .endCall .. | .transferRequest _ | .conversationFinalized | .terminate _ | .audioFrame _
  | .playbackCancelled | .timerFired .connectionTimeout | .timerFired .noSpeechTimeout
  | .timerFired .maxUtteranceTimeout | .timerFired .sttTimeout | .timerFired .llmTimeout
  | .timerFired .ttsTimeout | .timerFired .playbackTimeout | .timerFired .goodbyeTimeout
  | .timerFired .goodbyeConfirm | .timerFired .finalizingTimeout | .timerFired .closeTimeout
  | .timerFired .rtpInactivity =>
    inferInstanceAs (Decidable False)

/-- How many messages the item sends ahead of its last control message. -/
def ahead (s : CallSession) (item : SessionItem) : ℕ :=
  match item with
  | .transferBody destination _ =>
    if destination = "" ∧ s.fsm.state = .transferring then 1 else 0
  | .cancelAck | .timerFired .bargeInWindow =>
    if s.bargeInCapture = true ∧ HasReplay s then
      s.preroll.length + s.bargeInBuffer.length + if s.pendingSpeechEnded then 1 else 0
    else 0
  | _ => 0

/-- The messages of the calls of the handlers. -/
def callMessages (s : CallSession) (c : HandlerCall) : List GatewayMessage :=
  (callEffects s c).filterMap message?

variable {cfg : CallFsmTimerConfig} {playing : Bool} {item : SessionItem} {s t : CallSession}

/-- The messages that carry the frames. -/
def chunks (frames : List AudioFrame) : List GatewayMessage :=
  frames.map fun frame => .audioChunk frame.sequenceNum

theorem filterMap_message_sendAudio (frames : List AudioFrame) :
    (frames.map SessionEffect.sendAudio).filterMap message? = chunks frames := by
  induction frames with
  | nil => rfl
  | cons frame frames ih =>
    rw [List.map_cons, List.filterMap_cons, ih]
    rfl

@[simp] theorem callMessages_onSessionClose (reason : String) :
    callMessages t (.onSessionClose reason) = [] := by
  simp only [callMessages, callEffects]
  split_ifs <;> rfl

theorem callMessages_onTransferCompleted (t : CallSession) (success : Bool) (destination : String) :
    ∃ m : GatewayMessage, m.isControl = true ∧
      callMessages t (.onTransferCompleted success destination) = [m] := by
  simp only [callMessages, callEffects]
  rcases t.activeTransfer with _ | type <;> cases success <;> exact ⟨_, rfl, rfl⟩

/-- The messages of an event: the window before an utterance, if it starts one,
    or those of its handler. -/
theorem messages_event (t : CallSession) (f : CallFSM) (e : CallFSM.Event) :
    ((e.outline f).flatMap (callEffects t)).filterMap message? =
      if Enters f e then chunks t.preroll
      else if e.valid f then (e.handler? f).toList.flatMap (callMessages t) else [] := by
  have hhandler : ((e.handler? f).toList.flatMap (callEffects t)).filterMap message? =
      (e.handler? f).toList.flatMap (callMessages t) := by
    rw [List.filterMap_flatMap]
    rfl
  have hchange : (((e.target? f).toList.map fun next =>
      HandlerCall.onStateChanged f.state next "").flatMap (callEffects t)).filterMap message? =
      if e.target? f = some .recognizing then chunks t.preroll else [] := by
    rcases e.target? f with _ | next
    · rfl
    · by_cases hn : next = .recognizing
      · simp only [Option.toList_some, List.map_singleton, List.flatMap_singleton, callEffects, hn,
          if_true]
        exact filterMap_message_sendAudio _
      · simp [callEffects, hn]
  -- the event that starts an utterance, and those that are not valid, send no other message
  have hsilent : Enters f e ∨ e.valid f = false ∧ e.outline f ≠ [] →
      (e.handler? f).toList.flatMap (callMessages t) = [] := by
    rintro (⟨hv, ht⟩ | ⟨hv, ho⟩)
    · rcases e with e | type
      · cases e <;> simp_all [CallFSM.Event.target?, CallFSM.Event.handler?, CallFSM.Event.valid]
        case speechStarted => rfl
        all_goals revert ht; split_ifs <;> simp
      · cases type <;> simp_all [CallFSM.Event.target?, CallFSM.Event.handler?]
        rfl
    · rcases e with e | type
      · cases e <;> simp_all [CallFSM.Event.outline, CallFSM.Event.handler?]
        rfl
      · cases type <;> simp_all [CallFSM.Event.outline, CallFSM.Event.handler?]
  rcases CallFSM.Event.outline_cases f e with ⟨hv, ho | ho⟩ | ⟨hv, ho | ho⟩
  · rw [ho, List.flatMap_append, List.filterMap_append, hchange, hhandler]
    by_cases he : Enters f e
    · rw [if_pos he.2, if_pos he, hsilent (.inl he), List.append_nil]
    · rw [if_neg fun ht => he ⟨hv, ht⟩, if_neg he, if_pos hv, List.nil_append]
  · rw [ho, List.flatMap_append, List.filterMap_append, hchange, hhandler]
    by_cases he : Enters f e
    · rw [if_pos he.2, if_pos he, hsilent (.inl he), List.nil_append]
    · rw [if_neg fun ht => he ⟨hv, ht⟩, if_neg he, if_pos hv, List.append_nil]
  · have hne : ¬Enters f e := fun he => by simp [he.1] at hv
    rw [if_neg hne, if_neg (by simp [hv])]
    by_cases hnil : e.outline f = []
    · rw [hnil]
      rfl
    · rw [ho, hhandler, hsilent (.inr ⟨hv, hnil⟩)]
  · have hne : ¬Enters f e := fun he => by simp [he.1] at hv
    rw [ho, if_neg hne, if_neg (by simp [hv])]
    rfl

/-- The messages `ms` are frames with the control messages of the item behind. -/
def Sends (s : CallSession) (item : SessionItem) (ms : List GatewayMessage) : Prop :=
  ∃ frames controls, ms = chunks frames ++ controls ∧ (∀ m ∈ controls, m.isControl = true) ∧
    (controls ≠ [] ↔ Notifies s item) ∧
      (controls ≠ [] → frames.length + (controls.length - 1) = ahead s item)

theorem sends_chunks {frames : List AudioFrame} (h : ¬Notifies s item) :
    Sends s item (chunks frames) :=
  ⟨frames, [], (List.append_nil _).symm, nofun, ⟨nofun, fun hn => absurd hn h⟩, nofun⟩

theorem sends_nil (h : ¬Notifies s item) : Sends s item [] := by
  have hs : Sends s item (chunks []) := sends_chunks h
  exact hs

theorem sends_controls {ms : List GatewayMessage} (hne : ms ≠ []) (hm : ∀ m ∈ ms, m.isControl = true)
    (hn : Notifies s item) (ha : ms.length - 1 = ahead s item) : Sends s item ms :=
  ⟨[], ms, rfl, hm, ⟨fun _ => hn, fun _ => hne⟩, fun _ => (Nat.zero_add _).trans ha⟩

/-- The messages of an item that drives the machine by the event `e`. -/
theorem messages_process {e : CallFSM.Event} (h : ¬Completes s item) (he : item.event? s = some e) :
    (process cfg playing item ⟨s, []⟩).effects.filterMap message? =
      (prepare playing item ⟨s, []⟩).effects.filterMap message? ++
        if Enters s.fsm e then chunks (prepare playing item ⟨s, []⟩).session.preroll
        else if e.valid s.fsm then
          (e.handler? s.fsm).toList.flatMap (callMessages (prepare playing item ⟨s, []⟩).session)
        else [] := by
  rw [(process_of_not_completes _ _ (x := ⟨s, []⟩) h).2, List.filterMap_append, calls_of_event he,
    messages_event]

theorem messages_process_none (h : item.event? s = none) :
    (process cfg playing item ⟨s, []⟩).effects.filterMap message? =
      (prepare playing item ⟨s, []⟩).effects.filterMap message? := by
  have hn : ¬Completes s item := by
    intro hc
    obtain ⟨e, he, -⟩ := event_of_completes playing (x := ⟨s, []⟩) hc
    rw [h] at he
    cases he
  rw [(process_of_not_completes _ _ (x := ⟨s, []⟩) hn).2, calls_of_no_event h]
  simp

theorem not_completes_of (h : item ≠ .cancelAck) (h' : item ≠ .timerFired .bargeInWindow) :
    ¬Completes s item := by
  rintro ⟨-, -, hi | hi⟩
  · exact h hi
  · exact h' hi

/-- The completion of a barge-in sends what was captured first. -/
theorem sends_of_completes (h : Completes s item) :
    Sends s item ((process cfg playing item ⟨s, []⟩).effects.filterMap message?) := by
  have hn : Notifies s item := by
    rcases h.2.2 with rfl | rfl <;> exact h.1
  rw [(process_of_completes _ _ (x := ⟨s, []⟩) h).2, List.nil_append, List.filterMap_append]
  by_cases hr : HasReplay s
  · have ha : ahead s item =
        s.preroll.length + s.bargeInBuffer.length + if s.pendingSpeechEnded then 1 else 0 := by
      rcases h.2.2 with rfl | rfl <;> exact if_pos ⟨h.2.1, hr⟩
    refine ⟨s.preroll ++ s.bargeInBuffer, (if s.pendingSpeechEnded then
      [.speechEnded s.pendingSeDurationMs s.pendingSeEnergyDb] else []) ++ [.playbackFinished true],
      ?_, ?_, ⟨fun _ => hn, fun _ => by simp⟩, fun _ => ?_⟩
    · simp only [hr, if_true, List.filterMap_append, filterMap_message_sendAudio]
      rw [List.append_assoc]
      split_ifs <;> rfl
    · intro m hm
      split_ifs at hm
      · rcases List.mem_cons.1 hm with rfl | hm
        · rfl
        · rw [List.mem_singleton.1 hm]
          rfl
      · rw [List.mem_singleton.1 hm]
        rfl
    · rw [ha, List.length_append]
      split_ifs <;> rfl
  · have ha : ahead s item = 0 := by
      rcases h.2.2 with rfl | rfl <;> exact if_neg fun ha => hr ha.2
    rw [if_neg hr]
    have hs : Sends s item [.playbackFinished true] :=
      sends_controls (by simp) (by simp [GatewayMessage.isControl]) hn ha.symm
    exact hs

section

variable {e : CallFSM.Event} {m : GatewayMessage}

/-- An item that sends nothing but the window before an utterance. -/
theorem sends_quiet (hc : ¬Completes s item) (he : item.event? s = some e)
    (hp : (prepare playing item ⟨s, []⟩).effects.filterMap message? = [])
    (hh : ∀ t, (e.handler? s.fsm).toList.flatMap (callMessages t) = []) (hn : ¬Notifies s item) :
    Sends s item ((process cfg playing item ⟨s, []⟩).effects.filterMap message?) := by
  rw [messages_process hc he, hp, hh, ite_self, List.nil_append]
  split_ifs
  · exact sends_chunks hn
  · exact sends_nil hn

/-- An item that only sends the message of its handler. -/
theorem sends_handler (hc : ¬Completes s item) (he : item.event? s = some e)
    (hp : (prepare playing item ⟨s, []⟩).effects.filterMap message? = [])
    (hh : (e.handler? s.fsm).toList.flatMap
      (callMessages (prepare playing item ⟨s, []⟩).session) = [m]) (hm : m.isControl = true)
    (hr : ¬Enters s.fsm e) (hn : Notifies s item ↔ e.valid s.fsm = true)
    (ha : Notifies s item → ahead s item = 0) :
    Sends s item ((process cfg playing item ⟨s, []⟩).effects.filterMap message?) := by
  rw [messages_process hc he, hp, hh, if_neg hr, List.nil_append]
  split_ifs with hv
  · exact sends_controls (List.cons_ne_nil _ _) (by simpa using hm) (hn.2 hv) (ha (hn.2 hv)).symm
  · exact sends_nil fun h => hv (hn.1 h)

end

theorem sends_speechStarted (energyDb : Int) : Sends s (.speechStarted energyDb)
    ((process cfg playing (.speechStarted energyDb) ⟨s, []⟩).effects.filterMap message?) := by
  have hc : ¬Completes s (.speechStarted energyDb) := not_completes_of nofun nofun
  by_cases hs : s.fsm.state ∈ [CallFsmState.thinking, .synthesizing, .speaking]
  · -- a barge-in cancels the turn
    have hcancel : (process cfg playing (.speechStarted energyDb) ⟨s, []⟩).effects.filterMap
        message? = [.cancelGeneration] := by
      simp only [List.mem_cons, List.not_mem_nil, or_false] at hs
      rcases hs with hs | hs | hs
      · rw [messages_process (e := .trigger .earlyBargeIn) hc (by simp [SessionItem.event?, hs])]
        simp only [prepare, hs]
        cases playing <;> simp [startCapture, emit, Enters, CallFSM.Event.target?,
          CallFSM.Event.handler?] <;> rfl
      · rw [messages_process (e := .trigger .earlyBargeIn) hc (by simp [SessionItem.event?, hs])]
        simp only [prepare, hs]
        cases playing <;> simp [startCapture, emit, Enters, CallFSM.Event.target?,
          CallFSM.Event.handler?] <;> rfl
      · rw [messages_process_none (by simp [SessionItem.event?, hs])]
        simp only [prepare, hs]
        rfl
    rw [hcancel]
    exact sends_controls (List.cons_ne_nil _ _) (by simp [GatewayMessage.isControl]) hs rfl
  · refine sends_quiet (e := .trigger (.speechStarted energyDb)) hc ?_ ?_ (fun t => ?_) hs
    · simp only [SessionItem.event?]
      split <;> simp_all
    · simp only [prepare]
      split
      · simp_all
      · simp_all
      · simp_all
      · split_ifs <;> rfl
    · simp only [CallFSM.Event.handler?]
      split_ifs <;> rfl

theorem sends_transferBody (destination reason : String) :
    Sends s (.transferBody destination reason)
      ((process cfg playing (.transferBody destination reason) ⟨s, []⟩).effects.filterMap
        message?) := by
  have hc : ¬Completes s (.transferBody destination reason) := not_completes_of nofun nofun
  by_cases hd : destination = ""
  · -- the attempt is over at once
    have hne : ¬Enters s.fsm (.trigger (.transferCompleted false destination)) := by
      simp [Enters, CallFSM.Event.target?]
    obtain ⟨m, hm, hcall⟩ := callMessages_onTransferCompleted
      (prepare playing (.transferBody destination reason) ⟨s, []⟩).session false destination
    rw [messages_process (e := .trigger (.transferCompleted false destination)) hc
      (by simp [SessionItem.event?, hd]), if_neg hne]
    simp only [CallFSM.Event.handler?, Option.toList_some, List.flatMap_singleton, hcall]
    simp only [prepare, hd, if_true, CallFSM.Event.valid, decide_eq_true_eq]
    show Sends s _ (.transferInitiated _ _ _ _ :: _)
    refine sends_controls (List.cons_ne_nil _ _) ?_ trivial ?_
    · refine List.forall_mem_cons.2 ⟨rfl, ?_⟩
      split_ifs <;> simp [hm]
    · split_ifs with hs <;> simp [ahead, hs]
  · rw [messages_process_none (by simp [SessionItem.event?, hd])]
    simp only [prepare, hd, if_false]
    show Sends s _ [.transferInitiated _ _ _ _]
    exact sends_controls (List.cons_ne_nil _ _)
      (by simp [GatewayMessage.isControl]) trivial (by simp [ahead, hd])

/-- Nothing is captured. -/
theorem ahead_eq_zero_of_not_completes (hc : ¬Completes s item)
    (hi : item = .cancelAck ∨ item = .timerFired .bargeInWindow) (hb : s.fsm.state = .bargeIn) :
    ahead s item = 0 := by
  have hcap : ¬s.bargeInCapture = true := fun hcap => hc ⟨hb, hcap, hi⟩
  rcases hi with rfl | rfl <;> simp [ahead, hcap]

theorem sends_timerFired (type : FsmTimerType) (hc : ¬Completes s (.timerFired type)) :
    Sends s (.timerFired type)
      ((process cfg playing (.timerFired type) ⟨s, []⟩).effects.filterMap message?) := by
  cases type
  case bargeInWindow =>
    refine sends_handler (m := .playbackFinished true) hc rfl rfl rfl rfl ?_ ?_ ?_
    · simp [Enters, CallFSM.Event.target?]
    · simp [Notifies, CallFSM.Event.valid]
    · exact ahead_eq_zero_of_not_completes hc (.inr rfl)
  case transferTimeout =>
    obtain ⟨m, hm, hcall⟩ := callMessages_onTransferCompleted s false ""
    refine sends_handler (m := m) hc rfl rfl ?_ hm ?_ ?_ fun _ => rfl
    · exact (List.flatMap_singleton _ _).trans hcall
    · simp [Enters, CallFSM.Event.target?]
    · simp [Notifies, CallFSM.Event.valid]
  all_goals exact sends_quiet hc rfl rfl (fun t => by first | rfl | simp [CallFSM.Event.handler?]) id

theorem sends_process (cfg : CallFsmTimerConfig) (playing : Bool) (item : SessionItem)
    (s : CallSession) :
    Sends s item ((process cfg playing item ⟨s, []⟩).effects.filterMap message?) := by
  by_cases hc : Completes s item
  · exact sends_of_completes hc
  · cases item
    case endCall =>
      rw [messages_process_none rfl]
      exact sends_nil id
    case audioFrame frame =>
      rw [messages_process_none rfl]
      simp only [prepare, onAudioFrame]
      split_ifs
      · have hs : Sends s (.audioFrame frame) (chunks [frame]) := sends_chunks id
        exact hs
      · exact sends_nil id
      · exact sends_nil id
      · exact sends_nil id
      · exact sends_nil id
    case transferBody destination reason => exact sends_transferBody destination reason
    case speechStarted energyDb => exact sends_speechStarted energyDb
    case speechEnded durationMs energyDb =>
      by_cases hcap : s.bargeInCapture = true
      · rw [messages_process_none (by simp [SessionItem.event?, hcap])]
        simp only [prepare, hcap, if_true]
        exact sends_nil fun hn => by simp [Notifies, hcap] at hn
      · have hprep : prepare playing (.speechEnded durationMs energyDb) ⟨s, []⟩ = ⟨s, []⟩ :=
          if_neg hcap
        by_cases hr : s.fsm.state = .recognizing
        · refine sends_handler (m := .speechEnded durationMs energyDb)
            (e := .trigger (.speechEnded durationMs energyDb)) hc (if_neg hcap) (by rw [hprep]; rfl)
            ?_ rfl ?_ ?_ fun _ => rfl
          · simp only [CallFSM.Event.handler?, hr, if_true]
            rfl
          · simp [Enters, CallFSM.Event.target?]
          · simp [Notifies, CallFSM.Event.valid, hr, hcap]
        · refine sends_quiet (e := .trigger (.speechEnded durationMs energyDb)) hc (if_neg hcap)
            (by rw [hprep]; rfl) (fun t => ?_) fun hn => hr hn.1
          simp [CallFSM.Event.handler?, hr]
    case terminate reason =>
      by_cases ht : s.fsm.isTerminal = true
      · rw [messages_process_none (by simp [SessionItem.event?, ht])]
        exact sends_nil id
      · exact sends_quiet (e := .trigger (.sessionClose reason)) hc
          (by simp [SessionItem.event?, ht]) rfl (fun t => by simp [CallFSM.Event.handler?]) id
    case timerFired type => exact sends_timerFired type hc
    case cancelAck =>
      refine sends_handler (m := .playbackFinished true) hc rfl rfl rfl rfl ?_ ?_ ?_
      · simp [Enters, CallFSM.Event.target?]
      · simp [Notifies, CallFSM.Event.valid]
      · exact ahead_eq_zero_of_not_completes hc (.inl rfl)
    case transferOutcome attempt success destination detail =>
      obtain ⟨m, hm, hcall⟩ := callMessages_onTransferCompleted
        { s with pendingTransferDetail := detail } success destination
      refine sends_handler (m := m) hc rfl rfl ?_ hm ?_ ?_ fun _ => rfl
      · exact (List.flatMap_singleton _ _).trans hcall
      · cases success <;> simp [Enters, CallFSM.Event.target?]
      · simp [Notifies, CallFSM.Event.valid]
    case playbackFinished turn =>
      refine sends_handler (m := .playbackFinished false) hc rfl rfl rfl rfl ?_ ?_ fun _ => rfl
      · simp only [Enters, CallFSM.Event.target?, Bool.false_eq_true, if_false]
        split_ifs <;> simp
      · simp [Notifies, CallFSM.Event.valid]
    all_goals exact sends_quiet hc rfl rfl (fun t => by first | rfl | (simp only [CallFSM.Event.handler?]; split_ifs <;> rfl)) id

/-- The control messages of an item all find room, if the last one does. -/
theorem fits_process {n capacity : ℕ} :
    Fits (fun m : GatewayMessage => m.isControl = true) capacity n
        ((process cfg playing item ⟨s, []⟩).effects.filterMap message?) ↔
      (Notifies s item → n + ahead s item < capacity) := by
  obtain ⟨frames, controls, hms, hcontrol, hn, ha⟩ :=
    sends_process cfg playing item s
  have hframes : Fits (fun m : GatewayMessage => m.isControl = true) capacity n (chunks frames) := by
    refine fits_of_forall_not fun m hm => ?_
    obtain ⟨frame, -, rfl⟩ := List.mem_map.1 hm
    exact Bool.false_ne_true
  rw [hms, fits_append, and_iff_right hframes, fits_iff_of_forall hcontrol, ← hn]
  by_cases hc : controls = []
  · simp [hc]
  · have hlen : (chunks frames).length = frames.length := List.length_map _
    simp only [hc, false_or, ne_eq, not_false_eq_true, forall_true_left, hlen, ← ha hc, Nat.add_assoc]

end CallSession

end Yuviz.Gateway
