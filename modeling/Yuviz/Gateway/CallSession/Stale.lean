import Mathlib
import Yuviz.Gateway.CallSession.BargeIn

/-!
# No audio of a cancelled response

A barge-in cancels the response of the agent: those whose speech has started,
and those whose speech starts before the service acknowledges the cancel
(`Cancels`). The playback is emptied at the barge-in, but what the reader pushes
afterwards is not compared with what was cancelled. Nothing of a cancelled
response is played, and none starts the speech of a later turn
(`reachable_fresh`), in the runs in which no chunk of it is under way (`Fresh`).
-/

namespace Yuviz.Gateway

namespace CallSession

variable {cfg : CallFsmTimerConfig} {playing : Bool} {item : SessionItem} {s : CallSession}

/-- Only a barge-in cancels the response, -/
theorem startsCapture_of_cancelGeneration
    (h : .cancelGeneration ∈ (process cfg playing item ⟨s, []⟩).effects) : StartsCapture s item := by
  by_cases hc : Completes s item
  · rw [(process_of_completes _ _ (x := ⟨s, []⟩) hc).2] at h
    revert h
    split_ifs <;> simp
  · rw [(process_of_not_completes _ _ (x := ⟨s, []⟩) hc).2, List.mem_append] at h
    rcases h with h | h
    · cases item
      case speechStarted energyDb =>
        by_contra hs
        have hs : s.fsm.state ∉ [CallFsmState.thinking, .synthesizing, .speaking] :=
          fun hm => hs ⟨rfl, hm⟩
        rw [prepare_speechStarted (x := ⟨s, []⟩) hs] at h
        revert h
        split_ifs <;> simp [emit]
      case audioFrame frame =>
        simp only [prepare, onAudioFrame] at h
        split_ifs at h <;> simp [emit] at h
      case transferBody destination reason =>
        simp only [prepare] at h
        split_ifs at h <;> simp [emit] at h
      case speechEnded =>
        simp only [prepare] at h
        split_ifs at h <;> simp at h
      all_goals simp [prepare] at h
    · obtain ⟨c, -, h⟩ := List.mem_flatMap.1 h
      cases c
      case onStateChanged source target trigger =>
        simp only [callEffects] at h
        split_ifs at h <;> simp at h
      case onTransferCompleted success destination =>
        cases success <;> simp [callEffects] at h
      case onSessionClose reason =>
        simp only [callEffects] at h
        split_ifs at h <;> simp at h
      all_goals simp [callEffects] at h

/-- and it cancels the playback, if it is active. -/
theorem cancelPlayback_of_startsCapture (h : StartsCapture s item)
    (hp : s.fsm.state = .speaking ∨ playing = true) :
    .cancelPlayback ∈ (process cfg playing item ⟨s, []⟩).effects := by
  obtain ⟨ho, hs⟩ := h
  cases item <;> cases ho
  case speechStarted energyDb =>
    have hc : ¬Completes s (.speechStarted energyDb) := by simp [Completes]
    rw [(process_of_not_completes _ _ (x := ⟨s, []⟩) hc).2]
    refine List.mem_append_left _ ?_
    simp only [List.mem_cons, List.not_mem_nil, or_false] at hs
    rcases hs with hs | hs | hs
    · obtain rfl : playing = true := hp.resolve_left (by simp [hs])
      simp [prepare, hs, emit]
    · obtain rfl : playing = true := hp.resolve_left (by simp [hs])
      simp [prepare, hs, emit]
    · simp [prepare, hs, emit]

/-- It does not leave the machine in `synthesizing`. -/
theorem process_of_startsCapture (h : StartsCapture s item) :
    (process cfg playing item ⟨s, []⟩).session.fsm.state ≠ .synthesizing := by
  intro hsyn
  rcases process_state cfg playing item ⟨s, []⟩ with
    hn | ⟨-, hr | hr⟩
  · rcases nextState_of_startsCapture h with hb | ⟨-, hs⟩
    · cases hb.symm.trans (hn.symm.trans hsyn)
    · cases hs.symm.trans (hn.symm.trans hsyn)
  · cases hr.symm.trans hsyn
  · cases hr.symm.trans hsyn

end CallSession

namespace SessionThreads

open CallSession

variable {cfg : CallFsmTimerConfig} {maxFrames : ℕ} {callId callerDid : String}
  {s s' : SessionThreads}

/-- What has been cancelled: the responses up to a turn, and how many cancels
    the service has not acknowledged yet. -/
structure Cancels where
  cancelled : ℕ := 0
  awaiting : ℕ := 0
  deriving DecidableEq, Repr

/-- A response that starts before the acknowledgement is cancelled, too. -/
def Cancels.update (cfg : CallFsmTimerConfig) (m : Cancels) (s : SessionThreads) : Label → Cancels
  | .control => s.queue.head?.elim m fun item =>
    if .cancelGeneration ∈ (processed cfg s item).effects then ⟨s.turns, m.awaiting + 1⟩ else m
  | .message .cancelAck => { m with awaiting := m.awaiting - 1 }
  | .message (.ttsStarted turn) => if 0 < m.awaiting then { m with cancelled := turn } else m
  | _ => m

/-- The turn of the first chunk of a response. -/
def chunk? : SessionItem → Option ℕ
  | .firstAudioChunk turn => some turn
  | _ => none

def isTextReady : SessionItem → Bool
  | .ttsStarted _ => true
  | _ => false

/-- The chunks that arrive are of responses that have started and are not
    cancelled. None is being pushed at a barge-in, which finds the playback
    active if it holds frames; and none is announced when the next response starts. -/
def Fresh (s : SessionThreads × Cancels) : Label → Prop
  | .ttsChunk turn _ _ => s.2.cancelled < turn ∧ turn ≤ s.1.turns
  | .control => ∀ item ∈ s.1.queue.head?,
    (StartsCapture s.1.session item → s.1.incoming = [] ∧
      (s.1.session.fsm.state = .speaking ∨ s.1.media.playbackActive = true ∨
        s.1.media.playbackQueue = [])) ∧
    (s.1.session.fsm.state = .thinking → isTextReady item = true →
      ∀ turn ∈ s.1.queue.filterMap chunk?, s.2.cancelled < turn)
  | _ => True

instance (s : SessionThreads × Cancels) : (l : Label) → Decidable (Fresh s l)
  | .ttsChunk .. => inferInstanceAs (Decidable (_ ∧ _))
  | .control => inferInstanceAs (Decidable (∀ item ∈ s.1.queue.head?, _ ∧ _))
  | .message _ | .push | .event _ | .pop | .drained | .telephony _ => .isTrue trivial

/-- Of the frames that are played and the chunks that are announced, none is of a
    cancelled response. -/
structure Clean (s : SessionThreads) (m : Cancels) : Prop where
  le : m.cancelled ≤ s.turns
  awaiting : 0 < m.awaiting → m.cancelled = s.turns
  frames : ∀ f ∈ s.media.playbackQueue ++ s.incoming, m.cancelled < f.turn ∧ f.turn ≤ s.turns
  chunks : ∀ turn ∈ s.queue.filterMap chunk?, turn ≤ s.turns
  synthesizing : s.session.fsm.state = .synthesizing →
    ∀ turn ∈ s.queue.filterMap chunk?, m.cancelled < turn

variable {m : Cancels} {l : Label}

/-- A step that pushes no frame, announces no chunk and leaves the machine alone. -/
theorem Clean.frame (h : Clean s m) (items : List SessionItem) (ht : s'.turns = s.turns)
    (hf : ∀ f ∈ s'.media.playbackQueue ++ s'.incoming, f ∈ s.media.playbackQueue ++ s.incoming)
    (hq : s'.queue = s.queue ++ items) (hi : ∀ item ∈ items, chunk? item = none)
    (hs : s'.session.fsm.state = s.session.fsm.state) : Clean s' m := by
  have hchunks : s'.queue.filterMap chunk? = s.queue.filterMap chunk? := by
    rw [hq, List.filterMap_append, List.filterMap_eq_nil_iff.2 hi, List.append_nil]
  refine ⟨?_, ?_, ?_, ?_, ?_⟩
  · rw [ht]
    exact h.le
  · rw [ht]
    exact h.awaiting
  · rw [ht]
    exact fun f hm => h.frames f (hf f hm)
  · rw [ht, hchunks]
    exact h.chunks
  · rw [hs, hchunks]
    exact h.synthesizing

/-- The control thread processes an item. -/
theorem Clean.control (h : Clean s m) (hg : Fresh (s, m) .control)
    (hst : step cfg maxFrames s .control = some s') : Clean s' (m.update cfg s .control) := by
  obtain ⟨item, rest, hq, -, rfl⟩ := control_cases hst
  obtain ⟨hbarge, htext⟩ := hg item (by rw [hq]; rfl)
  have hposted : ((processed cfg s item).effects.filterMap posted).filterMap chunk? = [] := by
    refine List.filterMap_eq_nil_iff.2 fun i hi => ?_
    rcases posted_process rfl i hi with rfl | ⟨destination, reason, rfl⟩ <;> rfl
  have hchunks : ∀ turn ∈ rest.filterMap chunk?, turn ∈ s.queue.filterMap chunk? := by
    rw [hq]
    exact fun turn ht => (List.Sublist.filterMap _ (List.sublist_cons_self _ _)).subset ht
  have hupdate : m.update cfg s .control =
      if .cancelGeneration ∈ (processed cfg s item).effects then ⟨s.turns, m.awaiting + 1⟩ else m := by
    simp [Cancels.update, hq]
  rw [hupdate]
  refine ⟨?_, ?_, ?_, ?_, ?_⟩
  · rw [foldl_apply_turns]
    split_ifs
    · exact Nat.le_refl _
    · exact h.le
  · rw [foldl_apply_turns]
    split_ifs
    · exact fun _ => rfl
    · exact h.awaiting
  · rw [foldl_apply_turns, foldl_apply_media, foldl_apply_incoming]
    by_cases hgen : .cancelGeneration ∈ (processed cfg s item).effects
    · -- a barge-in leaves nothing to play
      have hst : StartsCapture s.session item := startsCapture_of_cancelGeneration hgen
      obtain ⟨hin, hplay⟩ := hbarge hst
      have hnone : (if .cancelPlayback ∈ (processed cfg s item).effects then
          s.media.cancelPlayback else s.media).playbackQueue = [] := by
        split_ifs with hcancel
        · rfl
        · rcases hplay with hs | hp | hempty
          · exact absurd (cancelPlayback_of_startsCapture hst (.inl hs)) hcancel
          · exact absurd (cancelPlayback_of_startsCapture hst (.inr hp)) hcancel
          · exact hempty
      intro f hf
      simp only [hnone, show s.incoming = [] from hin, List.append_nil, List.not_mem_nil] at hf
    · rw [if_neg hgen]
      intro f hf
      refine h.frames f ?_
      split_ifs at hf
      · exact List.mem_append_right _ hf
      · exact hf
  · rw [foldl_apply_turns, foldl_apply_queue, List.filterMap_append, hposted, List.append_nil]
    exact fun turn ht => h.chunks turn (hchunks turn ht)
  · rw [foldl_apply_session, foldl_apply_queue, List.filterMap_append, hposted, List.append_nil]
    intro hsyn turn ht
    have hnot : .cancelGeneration ∉ (processed cfg s item).effects := fun hgen =>
      process_of_startsCapture (startsCapture_of_cancelGeneration hgen) hsyn
    rw [if_neg hnot]
    rcases process_synthesizing hsyn with hs | ⟨hs, turn', rfl⟩
    · exact h.synthesizing hs turn (hchunks turn ht)
    · exact htext hs rfl turn (hchunks turn ht)

/-- A message arrives. -/
theorem Clean.message (h : Clean s m) {item : SessionItem}
    (hst : step cfg maxFrames s (.message item) = some s') :
    Clean s' (m.update cfg s (.message item)) := by
  obtain ⟨hi, hq, hsess, -, -, hturn⟩ := message_cases hst
  have hmedia : s'.media = s.media ∧ s'.incoming = s.incoming := by
    simp only [step, SessionThreads.message] at hst
    split_ifs at hst
    split at hst
    · split_ifs at hst
      obtain rfl := Option.some.inj hst
      exact ⟨rfl, rfl⟩
    · obtain rfl := Option.some.inj hst
      exact ⟨rfl, rfl⟩
  have hnone : chunk? item = none := by
    cases item <;> first | rfl | cases hi
  have hchunks : s'.queue.filterMap chunk? = s.queue.filterMap chunk? := by
    rw [hq, List.filterMap_append, List.filterMap_cons_none hnone, List.filterMap_nil,
      List.append_nil]
  rcases hturn with ⟨turn, rfl, rfl, hturns⟩ | ⟨hne, hturns⟩
  · by_cases hawait : 0 < m.awaiting
    · -- a response that starts after the barge-in: all that was there is gone
      have hm : m.update cfg s (.message (.ttsStarted (s.turns + 1))) =
          { m with cancelled := s.turns + 1 } := if_pos hawait
      have hc := h.awaiting hawait
      have hnoframe : ∀ f ∈ s.media.playbackQueue ++ s.incoming, False := by
        intro f hf
        obtain ⟨hlt, hle⟩ := h.frames f hf
        omega
      rw [hm]
      refine ⟨Nat.le_of_eq hturns.symm, fun _ => hturns.symm, ?_, ?_, ?_⟩
      · rw [hmedia.1, hmedia.2]
        exact fun f hf => (hnoframe f hf).elim
      · rw [hchunks, hturns]
        exact fun turn ht => Nat.le_succ_of_le (h.chunks turn ht)
      · rw [hchunks, hsess]
        intro hsyn turn ht
        have hlt := h.synthesizing hsyn turn ht
        have hle := h.chunks turn ht
        omega
    · have hm : m.update cfg s (.message (.ttsStarted (s.turns + 1))) = m := if_neg hawait
      rw [hm]
      refine ⟨?_, fun ha => absurd ha hawait, ?_, ?_, ?_⟩
      · rw [hturns]
        exact Nat.le_succ_of_le h.le
      · rw [hmedia.1, hmedia.2, hturns]
        exact fun f hf => ⟨(h.frames f hf).1, Nat.le_succ_of_le (h.frames f hf).2⟩
      · rw [hchunks, hturns]
        exact fun turn ht => Nat.le_succ_of_le (h.chunks turn ht)
      · rw [hchunks, hsess]
        exact h.synthesizing
  · have hframe : Clean s' m := h.frame _ hturns (by rw [hmedia.1, hmedia.2]; exact fun _ hf => hf) hq
      (by simpa using hnone) (by rw [hsess])
    cases item
    case ttsStarted turn => exact absurd rfl (hne turn)
    case cancelAck =>
      exact ⟨hframe.le, fun ha => hframe.awaiting (Nat.lt_of_lt_of_le ha (Nat.sub_le _ _)),
        hframe.frames, hframe.chunks, hframe.synthesizing⟩
    all_goals exact hframe

/-- A chunk arrives. -/
theorem Clean.ttsChunk (h : Clean s m) {turn more : ℕ} {isFinal : Bool}
    (hg : Fresh (s, m) (.ttsChunk turn more isFinal))
    (hst : step cfg maxFrames s (.ttsChunk turn more isFinal) = some s') : Clean s' m := by
  obtain ⟨hlt, hle⟩ := hg
  simp only [step] at hst
  split_ifs at hst
  obtain rfl := Option.some.inj hst
  have hframes : ∀ f ∈ s.media.playbackQueue ++ subFrames turn more isFinal,
      m.cancelled < f.turn ∧ f.turn ≤ s.turns := by
    intro f hf
    rcases List.mem_append.1 hf with hf | hf
    · exact h.frames f (List.mem_append_left _ hf)
    · have hturn : f.turn = turn := by
        rcases List.mem_append.1 hf with hf | hf
        · rw [List.eq_of_mem_replicate hf]
        · rw [List.mem_singleton.1 hf]
      rw [hturn]
      exact ⟨hlt, hle⟩
  simp only [SessionThreads.ttsChunk]
  split_ifs
  · refine ⟨h.le, h.awaiting, hframes, fun t ht => ?_, fun hsyn t ht => ?_⟩
    · rw [post_queue, List.filterMap_append] at ht
      rcases List.mem_append.1 ht with ht | ht
      · exact h.chunks t ht
      · rw [List.mem_singleton.1 ht]
        exact hle
    · rw [post_queue, List.filterMap_append] at ht
      rcases List.mem_append.1 ht with ht | ht
      · exact h.synthesizing hsyn t ht
      · rw [List.mem_singleton.1 ht]
        exact hlt
  · exact ⟨h.le, h.awaiting, hframes, h.chunks, h.synthesizing⟩

/-- The steps of the other threads. -/
theorem Clean.other (h : Clean s m) (hl : l ≠ .control) (hm : ∀ item, l ≠ .message item)
    (hc : ∀ turn more isFinal, l ≠ .ttsChunk turn more isFinal)
    (hst : step cfg maxFrames s l = some s') : Clean s' m := by
  rcases l with item | ⟨turn, more, isFinal⟩ | _ | item | _ | _ | _ | l
  · exact absurd rfl (hm item)
  · exact absurd rfl (hc turn more isFinal)
  · -- a frame goes from the reader to the playback, or is rejected
    simp only [step, push] at hst
    split_ifs at hst <;> split at hst
    · next frame rest hin =>
      obtain rfl := Option.some.inj hst
      refine h.frame [] rfl (fun f hf => ?_) (List.append_nil _).symm (by simp) rfl
      rw [hin]
      simp only [MediaSession.push] at hf
      split_ifs at hf
      · rcases List.mem_append.1 hf with hf | hf
        · exact List.mem_append_left _ hf
        · exact List.mem_append_right _ (List.mem_cons_of_mem _ hf)
      · simpa using hf
    · cases hst
    · obtain rfl := Option.some.inj hst
      exact h.frame [] rfl (fun f hf => hf) (List.append_nil _).symm (by simp) rfl
    · cases hst
  · simp only [step] at hst
    split_ifs at hst with _ hi
    obtain rfl := Option.some.inj hst
    cases item
    case audioFrame frame =>
      simp only [event]
      split_ifs
      · exact h.frame [_] rfl (fun f hf => hf) rfl (by simp [chunk?]) rfl
      · exact h
    all_goals first
      | exact absurd hi Bool.false_ne_true
      | exact h.frame [_] rfl (fun f hf => hf) rfl (by simp [chunk?]) rfl
  · simp only [step, pop] at hst
    split at hst
    · cases hst
    · split at hst
      · next frame rest hqueue =>
        split_ifs at hst
        obtain rfl := Option.some.inj hst
        refine h.frame [] rfl (fun f hf => ?_) (List.append_nil _).symm (by simp) rfl
        rw [hqueue]
        exact List.mem_cons_of_mem _ hf
      · cases hst
  · have hdrained : (s.media.onDrained).playbackQueue = s.media.playbackQueue := by
      unfold MediaSession.onDrained
      split_ifs <;> rfl
    simp only [step, reportDrained] at hst
    split_ifs at hst
    split at hst
    · obtain rfl := Option.some.inj hst
      refine h.frame [_] rfl (fun f hf => ?_) rfl (by simp [chunk?]) rfl
      exact hdrained ▸ hf
    · obtain rfl := Option.some.inj hst
      refine h.frame [] rfl (fun f hf => ?_) (List.append_nil _).symm (by simp) rfl
      exact hdrained ▸ hf
  · exact absurd rfl hl
  · obtain ⟨-, -, c, -, rfl⟩ := telephony_cases hst
    obtain ⟨hq, ht, -⟩ := foldl_callback_queue (s := { s with coordinators := c })
      (c.log.drop s.coordinators.log.length)
    obtain ⟨b, hb⟩ := foldl_callback_session (s := { s with coordinators := c })
      (c.log.drop s.coordinators.log.length)
    obtain ⟨hmedia, hin⟩ := foldl_callback_media (s := { s with coordinators := c })
      (c.log.drop s.coordinators.log.length)
    refine h.frame _ ht (fun f hf => ?_) hq (fun i hi => ?_) (by rw [hb])
    · rwa [hmedia, hin] at hf
    · obtain ⟨e, -, he⟩ := List.mem_filterMap.1 hi
      simp only [outcome] at he
      split at he
      · rw [← Option.some.inj he]
        rfl
      · cases he

theorem Clean.step (h : Clean s m) (hg : Fresh (s, m) l)
    (hst : step cfg maxFrames s l = some s') : Clean s' (m.update cfg s l) := by
  by_cases hl : l = .control
  · subst hl
    exact h.control hg hst
  by_cases hm : ∃ item, l = .message item
  · obtain ⟨item, rfl⟩ := hm
    exact h.message hst
  by_cases hc : ∃ turn more isFinal, l = .ttsChunk turn more isFinal
  · obtain ⟨turn, more, isFinal, rfl⟩ := hc
    exact h.ttsChunk hg hst
  · simp only [not_exists] at hm hc
    have hsame : m.update cfg s l = m := by
      cases l <;> first | rfl | exact absurd rfl hl | exact absurd rfl (hm _)
    rw [hsame]
    exact h.other hl hm hc hst

/-- Nothing of a cancelled response is played or starts the speech of a later
    turn, in every run in which no chunk of one is under way. -/
theorem reachable_fresh
    (hs : ((system cfg maxFrames callId callerDid).monitored {} (Cancels.update cfg)).ReachableIf
      Fresh (s, m)) :
    (∀ f ∈ s.media.playbackQueue, m.cancelled < f.turn) ∧
      ∀ turn, s.queue.head? = some (.firstAudioChunk turn) → s.session.fsm.state = .synthesizing →
        m.cancelled < turn := by
  have hinit : Clean (system cfg maxFrames callId callerDid).init {} :=
    ⟨Nat.le_refl _, nofun, nofun, nofun, nofun⟩
  have h : Clean s m := by
    refine hs.invariant (I := fun s : SessionThreads × Cancels => Clean s.1 s.2) hinit
      fun s l s' hI hg hst => ?_
    obtain ⟨t, ht, rfl⟩ := Option.map_eq_some_iff.1 hst
    exact hI.step hg ht
  refine ⟨fun f hf => (h.frames f (List.mem_append_left _ hf)).1, fun turn hq hsyn => ?_⟩
  refine h.synthesizing hsyn turn (List.mem_filterMap.2 ⟨_, List.mem_of_mem_head? hq, rfl⟩)

/-- The caller barges in on the first turn, and the second one is played. -/
theorem reachable_fresh_bargeIn :
    ∃ (s : SessionThreads) (m : Cancels), (system {} 100 "call" "caller").Reachable s ∧
      s.media.playbackQueue = [⟨2, false⟩] ∧ m = ⟨1, 0⟩ ∧
        (∀ f ∈ s.media.playbackQueue, m.cancelled < f.turn) ∧
        ∀ turn, s.queue.head? = some (.firstAudioChunk turn) →
          s.session.fsm.state = .synthesizing → m.cancelled < turn := by
  have hexec : (((system {} 100 "call" "caller").monitored {} (Cancels.update {})).execIf Fresh
      ((system {} 100 "call" "caller").monitored {} (Cancels.update {})).init
      (firstTurn ++ ([.event (.speechStarted 0), .control, .control, .message .cancelAck, .control,
        .message (.sttResult "no" 1), .control, .message (.ttsStarted 2), .control,
        .ttsChunk 2 0 false, .push, .push] : List Label))).map
        (fun s => (s.1.media.playbackQueue, s.2)) = some ([⟨2, false⟩], ⟨1, 0⟩) := by
    decide
  obtain ⟨⟨s, m⟩, hs, hr⟩ := Option.map_eq_some_iff.1 hexec
  have hs : ((system {} 100 "call" "caller").monitored {} (Cancels.update {})).ReachableIf Fresh
      (s, m) := System.ReachableIf.execIf .init hs
  refine ⟨s, m, ?_, congrArg Prod.fst hr, congrArg Prod.snd hr, reachable_fresh hs⟩
  exact System.ReachableIf.of_monitored (g := fun _ _ => True) hs.reachable

/-- A chunk is on its way when the caller barges in: it is played. -/
theorem not_reachable_fresh :
    ¬∀ s m, ((system {} 100 "call" "caller").monitored {} (Cancels.update {})).Reachable (s, m) →
      (∀ f ∈ s.media.playbackQueue, m.cancelled < f.turn) ∧
        ∀ turn, s.queue.head? = some (.firstAudioChunk turn) →
          s.session.fsm.state = .synthesizing → m.cancelled < turn := by
  intro h
  have hexec : (((system {} 100 "call" "caller").monitored {} (Cancels.update {})).exec
      ((system {} 100 "call" "caller").monitored {} (Cancels.update {})).init
      (firstTurn ++ ([.event (.speechStarted 0), .control, .ttsChunk 1 0 false, .push, .push] :
        List Label))).map (fun s => (s.1.media.playbackQueue, s.2)) =
      some ([⟨1, false⟩], ⟨1, 1⟩) := by
    decide
  obtain ⟨⟨s, m⟩, hs, hr⟩ := Option.map_eq_some_iff.1 hexec
  simp only [Prod.mk.injEq] at hr
  obtain ⟨hqueue, rfl⟩ := hr
  have hf := (h s _ (System.Reachable.exec .init hs)).1 ⟨1, false⟩ (by rw [hqueue]; simp)
  exact Nat.lt_irrefl _ hf

end SessionThreads

end Yuviz.Gateway
