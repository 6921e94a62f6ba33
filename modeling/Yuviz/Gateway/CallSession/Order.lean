import Mathlib
import Yuviz.Gateway.CallSession.Replay

/-!
# The order of the audio of the caller

The audio worker numbers the frames of the caller. They reach the transport by
three ways: live, by the window before an utterance, and by the replay of a
barge-in. The session holds them back in this order, so that those sent, held
and still to be processed go up (`Ordered`), unless a frame is sent live while
those of an earlier capture are still held (`reachable_ordered`).
-/

namespace Yuviz.Gateway

namespace CallSession

/-- The number of the frame that an effect hands to the transport. -/
def sent? : SessionEffect → Option ℕ
  | .sendAudio frame => some frame.sequenceNum
  | _ => none

/-- The number of the frame of an item. -/
def frame? : SessionItem → Option ℕ
  | .audioFrame frame => some frame.sequenceNum
  | _ => none

/-- The numbers of the frames that are held back, in the order they are sent. -/
def held (s : CallSession) : List ℕ := (s.preroll ++ s.bargeInBuffer).map (·.sequenceNum)

/-- What is held back: there is no window during a capture or an utterance, and
    no buffer without a capture. -/
structure Tidy (s : CallSession) : Prop where
  capture : s.bargeInCapture = true → s.preroll = []
  buffer : s.bargeInCapture = false → s.bargeInBuffer = []
  utterance : s.fsm.state = .recognizing → s.preroll = []

/-- A frame of an utterance is sent with nothing captured before it held back. -/
def KeepsOrder (s : CallSession) (item : SessionItem) : Prop :=
  isFrame item = true → s.fsm.state = .recognizing → s.bargeInCapture = true →
    s.bargeInBuffer = []

instance (s : CallSession) (item : SessionItem) : Decidable (KeepsOrder s item) :=
  inferInstanceAs (Decidable (_ → _ → _ → _))

variable {cfg : CallFsmTimerConfig} {playing : Bool} {item : SessionItem} {s t : CallSession}

theorem filterMap_sendAudio (frames : List AudioFrame) :
    (frames.map SessionEffect.sendAudio).filterMap sent? = frames.map (·.sequenceNum) := by
  induction frames with
  | nil => rfl
  | cons frame frames ih =>
    rw [List.map_cons, List.filterMap_cons, ih]
    rfl

/-- A semantic call sends no frame. -/
theorem sent_callEffects {c : HandlerCall} (h : CallFSM.isSemantic c = true) :
    (callEffects s c).filterMap sent? = [] := by
  cases c
  case onTransferCompleted success destination =>
    rcases ha : s.activeTransfer with _ | type <;> cases success <;> simp [callEffects, ha, sent?]
  case onSessionClose reason =>
    by_cases hh : s.sipLegHandedOff = true <;> simp [callEffects, hh, sent?]
  all_goals first | rfl | cases h

/-- The calls of the handlers send the window, if they enter an utterance. -/
theorem sent_calls (s t : CallSession) (item : SessionItem) :
    ((calls s item).flatMap (callEffects t)).filterMap sent? =
      if (calls s item).any isUtterance then t.preroll.map (·.sequenceNum) else [] := by
  rcases he : item.event? s with _ | e
  · simp [calls_of_no_event he]
  · rw [calls_of_event he, any_isUtterance]
    have hhandler : ((e.handler? s.fsm).toList.flatMap (callEffects t)).filterMap sent? = [] := by
      rcases hh : e.handler? s.fsm with _ | c
      · rfl
      · simpa using sent_callEffects (s := t) (CallFSM.Event.isSemantic_of_handler hh)
    have hchange : (((e.target? s.fsm).toList.map fun next =>
        HandlerCall.onStateChanged s.fsm.state next "").flatMap (callEffects t)).filterMap sent? =
        if e.target? s.fsm = some .recognizing then t.preroll.map (·.sequenceNum) else [] := by
      rcases e.target? s.fsm with _ | next
      · rfl
      · by_cases hn : next = .recognizing
        · simp only [Option.toList_some, List.map_singleton, List.flatMap_singleton, callEffects, hn,
            if_true]
          exact filterMap_sendAudio _
        · simp [callEffects, hn]
    rcases CallFSM.Event.outline_cases s.fsm e with ⟨hv, ho | ho⟩ | ⟨hv, ho | ho⟩ <;> rw [ho]
    · rw [List.flatMap_append, List.filterMap_append, hchange, hhandler]
      simp [Enters, hv]
    · rw [List.flatMap_append, List.filterMap_append, hchange, hhandler]
      simp [Enters, hv]
    · rw [hhandler]
      simp [Enters, hv]
    · simp [Enters, hv]

/-- The items other than those of the caller hold back and send nothing of their own. -/
theorem sent_prepare (h : isHeard item = false) :
    (prepare playing item ⟨s, []⟩).effects.filterMap sent? = [] := by
  cases item
  case audioFrame | speechStarted | speechEnded => cases h
  case transferBody destination reason =>
    simp only [prepare]
    split_ifs <;> rfl
  all_goals rfl

/-- A frame goes to the transport, to the buffer or to the window. -/
theorem onAudioFrame_held (frame : AudioFrame) (h : Tidy s) (hk : KeepsOrder s (.audioFrame frame)) :
    ((onAudioFrame frame ⟨s, []⟩).effects.filterMap sent? ++
      held (onAudioFrame frame ⟨s, []⟩).session).Sublist (held s ++ [frame.sequenceNum]) ∧
    Tidy (onAudioFrame frame ⟨s, []⟩).session := by
  simp only [onAudioFrame]
  by_cases hr : s.fsm.state = .recognizing
  · -- nothing is held back
    have hbuffer : s.bargeInBuffer = [] := by
      by_cases hc : s.bargeInCapture = true
      · exact hk rfl hr hc
      · exact h.buffer (by simpa using hc)
    have hheld : held s = [] := by simp [held, h.utterance hr, hbuffer]
    simp only [hr, if_true]
    refine ⟨?_, h⟩
    show ([frame.sequenceNum] ++ held s).Sublist _
    rw [hheld]
    exact List.Sublist.refl _
  · rw [if_neg hr]
    by_cases hc : s.bargeInCapture = true
    · have hp := h.capture hc
      rw [if_pos hc]
      split_ifs
      · refine ⟨?_, h.capture, fun hc' => ?_, h.utterance⟩
        · simp [held]
        · rw [hc] at hc'
          cases hc'
      · exact ⟨List.sublist_append_left _ _, h⟩
    · have hbuffer := h.buffer (by simpa using hc)
      rw [if_neg hc]
      refine ⟨?_, fun hc' => absurd hc' hc, h.buffer, fun hr' => absurd hr' hr⟩
      simp only [held, hbuffer, List.append_nil, List.filterMap_nil, List.nil_append]
      split_ifs
      · -- the window moves on
        rw [← List.map_singleton, ← List.map_append]
        exact (List.tail_sublist _).map _
      · simp

theorem startCapture_held (energyDb : Int) (hs : s.fsm.state ≠ .recognizing) :
    (held (startCapture energyDb ⟨s, []⟩).session).Sublist (held s) ∧
      Tidy (startCapture energyDb ⟨s, []⟩).session := by
  refine ⟨?_, fun _ => rfl, nofun, fun hr => absurd hr hs⟩
  simp only [held, startCapture, List.nil_append]
  exact (List.sublist_append_left _ _).map _

/-- What an item sends and leaves held back was held back, or is its own. -/
theorem prepare_held (playing : Bool) (h : Tidy s) (hk : KeepsOrder s item) :
    (((prepare playing item ⟨s, []⟩).effects.filterMap sent? ++
      held (prepare playing item ⟨s, []⟩).session).Sublist (held s ++ (frame? item).toList)) ∧
    Tidy (prepare playing item ⟨s, []⟩).session := by
  by_cases hheard : isHeard item = true
  · cases item
    case audioFrame frame => exact onAudioFrame_held frame h hk
    case speechStarted energyDb =>
      by_cases hs : s.fsm.state ∈ [CallFsmState.thinking, .synthesizing, .speaking]
      · obtain ⟨energyDb', hsess⟩ := prepare_of_startsCapture playing
          (x := ⟨s, []⟩) (⟨rfl, hs⟩ : StartsCapture s (.speechStarted energyDb))
        have hr : s.fsm.state ≠ .recognizing := by
          intro hr
          simp [hr] at hs
        obtain ⟨hsub, htidy⟩ := startCapture_held energyDb' hr
        have hsent : (prepare playing (.speechStarted energyDb) ⟨s, []⟩).effects.filterMap sent? =
            [] := by
          simp only [prepare]
          split <;> (try split_ifs) <;> rfl
        rw [hsess, hsent]
        exact ⟨hsub.trans (List.sublist_append_left _ _), htidy⟩
      · rw [prepare_speechStarted (x := ⟨s, []⟩) hs]
        split_ifs
        · exact ⟨List.sublist_append_left _ _, h⟩
        · exact ⟨List.sublist_append_left _ _, h⟩
    case speechEnded durationMs energyDb =>
      simp only [prepare]
      split_ifs
      · exact ⟨List.sublist_append_left _ _, h.capture, h.buffer, h.utterance⟩
      · exact ⟨List.sublist_append_left _ _, h⟩
    all_goals cases hheard
  · rw [Bool.not_eq_true] at hheard
    have hcap := prepare_captured playing (x := ⟨s, []⟩) hheard
    simp only [captured, Prod.mk.injEq] at hcap
    obtain ⟨hp, hb, hc, -⟩ := hcap
    have hfsm : (prepare playing item ⟨s, []⟩).session.fsm = s.fsm := prepare_fsm
    rw [sent_prepare hheard]
    refine ⟨?_, ?_, ?_, ?_⟩
    · simp [held, hp, hb]
    · rw [hp, hc]
      exact h.capture
    · rw [hb, hc]
      exact h.buffer
    · rw [hp, hfsm]
      exact h.utterance

/-- An item sends what was held back, in order, before what is still held back. -/
theorem process_held (h : Tidy s) (hk : KeepsOrder s item) :
    (((process cfg playing item ⟨s, []⟩).effects.filterMap sent? ++
      held (process cfg playing item ⟨s, []⟩).session).Sublist (held s ++ (frame? item).toList)) ∧
    Tidy (process cfg playing item ⟨s, []⟩).session := by
  by_cases hc : Completes s item
  · obtain ⟨⟨f, n, hs, hf⟩, he⟩ :=
      process_of_completes cfg playing (x := ⟨s, []⟩) hc
    have hp := h.capture hc.2.1
    rw [hs, he]
    refine ⟨?_, nofun, fun _ => rfl, fun hr => ?_⟩
    · refine List.Sublist.trans ?_ (List.sublist_append_left _ _)
      by_cases hr : HasReplay s
      · simp only [hr, if_true, List.nil_append, List.filterMap_append, filterMap_sendAudio, held,
          List.append_nil]
        split_ifs <;> simp [sent?]
      · simp only [hr, if_false, held, hp, List.nil_append]
        exact List.nil_sublist _
    · rw [hp, ite_self]
  · obtain ⟨⟨f, n, hs, hf⟩, he⟩ :=
      process_of_not_completes cfg playing (x := ⟨s, []⟩) hc
    obtain ⟨hsub, htidy⟩ := prepare_held playing h hk
    rw [hs, he, List.filterMap_append, sent_calls]
    refine ⟨?_, fun hcap => ?_, htidy.buffer, fun hr => ?_⟩
    · -- entering an utterance only sends what was held back first
      simp only [held, List.map_append] at hsub ⊢
      split_ifs
      · simpa using hsub
      · simpa using hsub
    · simp only [htidy.capture hcap, ite_self]
    · have hnext : nextState s item = .recognizing := hf.symm.trans hr
      have hfsm : (prepare playing item ⟨s, []⟩).session.fsm = s.fsm := prepare_fsm
      rcases hevent : item.event? s with _ | e
      · rw [nextState_of_no_event hevent] at hnext
        simp only [htidy.utterance (hfsm ▸ hnext), ite_self]
      · rw [nextState_of_event hevent] at hnext
        rcases CallFSM.Event.next_cases s.fsm e with hsame | ⟨hv, ht⟩
        · simp only [htidy.utterance (hfsm ▸ (hsame.symm.trans hnext)), ite_self]
        · have hany : (calls s item).any isUtterance = true := by
            rw [calls_of_event hevent, any_isUtterance]
            exact decide_eq_true ⟨hv, hnext ▸ ht⟩
          simp only [hany, if_true]

end CallSession

namespace SessionThreads

open CallSession

variable {cfg : CallFsmTimerConfig} {maxFrames : ℕ} {callId callerDid : String}

/-- A session with the number of the next frame, and those of the frames sent. -/
structure Numbered where
  threads : SessionThreads
  inboundSeq : ℕ := 0
  sent : List ℕ := []

/-- `drain_available` numbers the frames, of which there are 64 bits. -/
def numberedStep (cfg : CallFsmTimerConfig) (maxFrames : ℕ) (s : Numbered) (l : Label) :
    Option Numbered :=
  match l with
  | .event (.audioFrame frame) =>
    if frame.sequenceNum = s.inboundSeq % 2 ^ 64 then
      (step cfg maxFrames s.threads l).map fun t =>
        { s with threads := t, inboundSeq := s.inboundSeq + 1 }
    else none
  | .control =>
    (step cfg maxFrames s.threads l).map fun t =>
      { s with
        threads := t
        sent := s.sent ++ s.threads.queue.head?.toList.flatMap fun item =>
          (processed cfg s.threads item).effects.filterMap sent? }
  | _ => (step cfg maxFrames s.threads l).map fun t => { s with threads := t }

def numberedSystem (cfg : CallFsmTimerConfig) (maxFrames : ℕ) (callId callerDid : String) :
    System Numbered Label where
  init := { threads := (system cfg maxFrames callId callerDid).init }
  step := numberedStep cfg maxFrames

/-- The numbers do not run out, and a frame of an utterance is sent with nothing
    captured before it held back. -/
def KeepsNumbers (s : Numbered) (l : Label) : Prop :=
  s.inboundSeq < 2 ^ 64 ∧ Processes KeepsOrder s.threads l

instance (s : Numbered) (l : Label) : Decidable (KeepsNumbers s l) :=
  inferInstanceAs (Decidable (_ ∧ _))

variable {s s' : Numbered} {l : Label} {t : SessionThreads}

/-- The frames that were sent, that are held back and that are still to be
    processed are numbered in this order. -/
structure Ordered (s : Numbered) : Prop where
  tidy : Tidy s.threads.session
  pairwise : (s.sent ++ held s.threads.session ++ s.threads.queue.filterMap frame?).Pairwise (· < ·)
  lt : ∀ n ∈ s.sent ++ held s.threads.session ++ s.threads.queue.filterMap frame?, n < s.inboundSeq

/-- A step that posts no frame. -/
theorem Ordered.frame (h : Ordered s) (items : List SessionItem)
    (hs : held t.session = held s.threads.session ∧ (Tidy s.threads.session → Tidy t.session))
    (hq : t.queue = s.threads.queue ++ items) (hi : ∀ item ∈ items, frame? item = none) :
    Ordered { s with threads := t } := by
  have hnone : items.filterMap frame? = [] := List.filterMap_eq_nil_iff.2 hi
  refine ⟨hs.2 h.tidy, ?_, ?_⟩
  · rw [hs.1, hq, List.filterMap_append, hnone, List.append_nil]
    exact h.pairwise
  · rw [hs.1, hq, List.filterMap_append, hnone, List.append_nil]
    exact h.lt

/-- The control thread processes an item. -/
theorem Ordered.control (h : Ordered s) (hk : Processes KeepsOrder s.threads .control)
    (hst : step cfg maxFrames s.threads .control = some t) :
    Ordered { s with
      threads := t
      sent := s.sent ++ s.threads.queue.head?.toList.flatMap fun item =>
        (processed cfg s.threads item).effects.filterMap sent? } := by
  obtain ⟨item, rest, hq, -, rfl⟩ := control_cases hst
  have hkeeps : KeepsOrder s.threads.session item := hk rfl item (by rw [hq]; rfl)
  have hprocess : ((processed cfg s.threads item).effects.filterMap sent? ++
      held (processed cfg s.threads item).session).Sublist
        (held s.threads.session ++ (frame? item).toList) ∧
      Tidy (processed cfg s.threads item).session := process_held h.tidy hkeeps
  obtain ⟨hsub, htidy⟩ := hprocess
  have hposted : ((processed cfg s.threads item).effects.filterMap posted).filterMap frame? = [] := by
    refine List.filterMap_eq_nil_iff.2 fun i hi => ?_
    rcases posted_process rfl i hi with rfl | ⟨destination, reason, rfl⟩ <;> rfl
  have hqueue : (item :: rest).filterMap frame? = (frame? item).toList ++ rest.filterMap frame? := by
    rw [List.filterMap_cons]
    cases frame? item <;> rfl
  -- what is sent and held back moves up
  have hall : ((s.sent ++ (processed cfg s.threads item).effects.filterMap sent?) ++
      held (processed cfg s.threads item).session ++ rest.filterMap frame?).Sublist
      (s.sent ++ held s.threads.session ++ s.threads.queue.filterMap frame?) := by
    rw [hq, hqueue]
    simpa only [List.append_assoc] using
      (hsub.append_left s.sent).append_right (rest.filterMap frame?)
  have hsent : (s.threads.queue.head?.toList.flatMap fun item =>
      (processed cfg s.threads item).effects.filterMap sent?) =
      (processed cfg s.threads item).effects.filterMap sent? := by
    simp [hq]
  rw [hsent]
  refine ⟨?_, ?_, ?_⟩
  · rw [foldl_apply_session]
    exact htidy
  · simp only [foldl_apply_session, foldl_apply_queue, List.filterMap_append, hposted, List.append_nil]
    exact h.pairwise.sublist hall
  · simp only [foldl_apply_session, foldl_apply_queue, List.filterMap_append, hposted, List.append_nil]
    exact fun n hn => h.lt n (hall.subset hn)

/-- A frame is numbered, and posted if the machine accepts audio. -/
theorem Ordered.audioFrame (h : Ordered s) (hlt : s.inboundSeq < 2 ^ 64) {frame : AudioFrame}
    (hn : frame.sequenceNum = s.inboundSeq % 2 ^ 64)
    (hst : step cfg maxFrames s.threads (.event (.audioFrame frame)) = some t) :
    Ordered { s with threads := t, inboundSeq := s.inboundSeq + 1 } := by
  rw [Nat.mod_eq_of_lt hlt] at hn
  have hup : ∀ n ∈ s.sent ++ held s.threads.session ++ s.threads.queue.filterMap frame?,
      n < s.inboundSeq + 1 := fun n hn => Nat.lt_succ_of_lt (h.lt n hn)
  simp only [step, SessionItem.isEvent, if_true, event] at hst
  split_ifs at hst
  · obtain rfl := Option.some.inj hst
    refine ⟨h.tidy, ?_, ?_⟩
    · rw [post_session, post_queue, List.filterMap_append, ← List.append_assoc]
      refine List.pairwise_append.2 ⟨h.pairwise, by simp [frame?], fun n hn' m hm => ?_⟩
      have hm : m = s.inboundSeq := by simpa [frame?, hn] using hm
      exact hm ▸ h.lt n hn'
    · rw [post_session, post_queue, List.filterMap_append, ← List.append_assoc]
      intro n hn'
      rcases List.mem_append.1 hn' with hn' | hn'
      · exact hup n hn'
      · have hm : n = s.inboundSeq := by simpa [frame?, hn] using hn'
        exact hm ▸ Nat.lt_succ_self _
  · obtain rfl := Option.some.inj hst
    exact ⟨h.tidy, h.pairwise, hup⟩

theorem held_of_flag {b : Bool} {x y : CallSession} (h : y = { x with sipLegHandedOff := b }) :
    held y = held x ∧ (Tidy x → Tidy y) := by
  subst h
  exact ⟨rfl, fun ht => ⟨ht.capture, ht.buffer, ht.utterance⟩⟩

/-- The steps of the other threads post no frame but those of the audio worker. -/
theorem Ordered.other (h : Ordered s) (hl : l ≠ .control)
    (hf : ∀ frame, l ≠ .event (.audioFrame frame))
    (hst : step cfg maxFrames s.threads l = some t) : Ordered { s with threads := t } := by
  obtain ⟨b, hb⟩ := step_session hst hl
  have hheld := held_of_flag hb
  rcases l with item | _ | _ | item | _ | _ | _ | l
  · obtain ⟨hi, hq, -⟩ := message_cases hst
    refine h.frame _ hheld hq fun i hi' => ?_
    rw [List.mem_singleton.1 hi']
    cases item <;> first | rfl | cases hi
  · simp only [step] at hst
    split_ifs at hst
    obtain rfl := Option.some.inj hst
    by_cases hp : s.threads.ttsFirstChunkPending = true
    · exact h.frame [_] hheld (by simp only [ttsChunk, hp, if_true]; rfl) (by simp [frame?])
    · exact h.frame [] hheld (by simp [ttsChunk, hp]) (by simp)
  · simp only [step, push] at hst
    split_ifs at hst <;> split at hst
    · obtain rfl := Option.some.inj hst
      exact h.frame [] hheld (List.append_nil _).symm (by simp)
    · cases hst
    · obtain rfl := Option.some.inj hst
      exact h.frame [] hheld (List.append_nil _).symm (by simp)
    · cases hst
  · have hi : frame? item = none := by
      cases item
      case audioFrame frame => exact absurd rfl (hf frame)
      all_goals rfl
    simp only [step] at hst
    split_ifs at hst
    obtain rfl := Option.some.inj hst
    refine h.frame [item] hheld ?_ (by simpa using hi)
    cases item
    case audioFrame frame => cases hi
    all_goals rfl
  · simp only [step, pop] at hst
    split at hst
    · cases hst
    · split at hst
      · split_ifs at hst
        obtain rfl := Option.some.inj hst
        exact h.frame [] hheld (List.append_nil _).symm (by simp)
      · cases hst
  · simp only [step, reportDrained] at hst
    split_ifs at hst
    split at hst
    · obtain rfl := Option.some.inj hst
      exact h.frame [_] hheld rfl (by simp [frame?])
    · obtain rfl := Option.some.inj hst
      exact h.frame [] hheld (List.append_nil _).symm (by simp)
  · exact absurd rfl hl
  · obtain ⟨-, -, c, -, rfl⟩ := telephony_cases hst
    obtain ⟨hq, -⟩ := foldl_callback_queue (s := { s.threads with coordinators := c })
      (c.log.drop s.threads.coordinators.log.length)
    refine h.frame _ hheld hq fun i hi => ?_
    obtain ⟨e, -, he⟩ := List.mem_filterMap.1 hi
    simp only [outcome] at he
    split at he
    · rw [← Option.some.inj he]
      rfl
    · cases he

theorem Ordered.step (h : Ordered s) (hg : KeepsNumbers s l)
    (hst : numberedStep cfg maxFrames s l = some s') : Ordered s' := by
  obtain ⟨hlt, hk⟩ := hg
  simp only [numberedStep] at hst
  split at hst
  case h_1 frame =>
    split_ifs at hst with hn
    obtain ⟨t, ht, rfl⟩ := Option.map_eq_some_iff.1 hst
    exact h.audioFrame hlt hn ht
  case h_2 =>
    obtain ⟨t, ht, rfl⟩ := Option.map_eq_some_iff.1 hst
    exact h.control hk ht
  case h_3 hf hl =>
    obtain ⟨t, ht, rfl⟩ := Option.map_eq_some_iff.1 hst
    exact h.other hl hf ht

/-- The numbers of the frames handed to the transport go up: in every run in which
    no frame of an utterance is sent with a frame captured before it held back. -/
theorem reachable_ordered
    (hs : (numberedSystem cfg maxFrames callId callerDid).ReachableIf KeepsNumbers s) :
    s.sent.Pairwise (· < ·) := by
  have hinit : Ordered (numberedSystem cfg maxFrames callId callerDid).init :=
    ⟨⟨fun _ => rfl, fun _ => rfl, fun _ => rfl⟩, List.Pairwise.nil, nofun⟩
  have h : Ordered s := hs.invariant (I := Ordered) hinit fun _ _ _ h hg hst => h.step hg hst
  exact (List.pairwise_append.1 (List.pairwise_append.1 h.pairwise).1).1

/-- A frame before the onset of an utterance, and two in it. -/
theorem reachable_ordered_utterance :
    ∃ s, (numberedSystem {} 100 "call" "caller").Reachable s ∧ s.sent = [0, 1, 2] ∧
      s.sent.Pairwise (· < ·) := by
  have hexec : ((numberedSystem {} 100 "call" "caller").execIf KeepsNumbers
      (numberedSystem {} 100 "call" "caller").init
      ([.control, .message .serviceReady, .control, .event (.audioFrame ⟨0⟩), .control,
        .event (.speechStarted 0), .control, .event (.audioFrame ⟨1⟩), .event (.audioFrame ⟨2⟩),
        .control, .control] : List Label)).map (fun s => s.sent) = some [0, 1, 2] := by
    decide
  obtain ⟨s, hs, hr⟩ := Option.map_eq_some_iff.1 hexec
  have hs : (numberedSystem {} 100 "call" "caller").ReachableIf KeepsNumbers s :=
    System.ReachableIf.execIf .init hs
  exact ⟨s, hs.reachable, hr, reachable_ordered hs⟩

/-- The caller barges in just before the speech of the agent ends by itself: the
    capture outlives the barge-in, and its frame is replayed at the next one. -/
theorem not_reachable_ordered :
    ¬∀ s, (numberedSystem {} 100 "call" "caller").Reachable s → s.sent.Pairwise (· < ·) := by
  intro h
  have hexec : ((numberedSystem {} 100 "call" "caller").exec
      (numberedSystem {} 100 "call" "caller").init
      (firstTurn ++ ([.event (.speechStarted 0), .pop, .drained, .control, .control, .control,
        .event (.audioFrame ⟨0⟩), .control, .event (.speechStarted 0), .control,
        .event (.audioFrame ⟨1⟩), .control,
        -- the next turn is spoken while the caller goes on
        .event (.speechStarted 0), .message (.sttResult "yes" 1), .message (.ttsStarted 2),
        .ttsChunk 2 0 false, .push, .push, .control, .control, .control, .control, .control,
        .message .cancelAck, .control] : List Label))).map (fun s => s.sent) = some [1, 0] := by
    decide
  obtain ⟨s, hs, hr⟩ := Option.map_eq_some_iff.1 hexec
  have hp := h s (System.Reachable.exec .init hs)
  rw [hr] at hp
  exact absurd hp (by decide)

end SessionThreads

end Yuviz.Gateway
