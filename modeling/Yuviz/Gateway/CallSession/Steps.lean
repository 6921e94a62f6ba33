import Yuviz.Gateway.CallSession.Items
import Yuviz.Gateway.CallSession.Threads

/-!
# What the processing of an item leads to

The state the machine is left in, and the items that are posted.
-/

namespace Yuviz.Gateway

namespace CallSession

variable {cfg : CallFsmTimerConfig} {playing : Bool} {item : SessionItem} {x : Exec}
  {s : CallSession}

theorem nextState_cases (s : CallSession) (item : SessionItem) :
    nextState s item = s.fsm.state ∨
      ∃ e, item.event? s = some e ∧ e.valid s.fsm = true ∧
        e.target? s.fsm = some (nextState s item) := by
  cases he : item.event? s with
  | none => exact .inl (nextState_of_no_event he)
  | some e =>
    rw [nextState_of_event he]
    rcases CallFSM.Event.next_cases s.fsm e with hn | ⟨hv, ht⟩
    · exact .inl hn
    · exact .inr ⟨e, rfl, hv, ht⟩

/-- A completed barge-in leaves `bargeIn` for good. -/
theorem process_state (cfg : CallFsmTimerConfig) (playing : Bool) (item : SessionItem) (x : Exec) :
    (process cfg playing item x).session.fsm.state = nextState x.session item ∨
    x.session.fsm.state = .bargeIn ∧
      ((process cfg playing item x).session.fsm.state = .recognizing ∨
        (process cfg playing item x).session.fsm.state = .listening) := by
  by_cases hc : Completes x.session item
  · obtain ⟨⟨f, n, hs, hf⟩, -⟩ := process_of_completes cfg playing hc
    rw [hs]
    exact .inr ⟨hc.1, by rw [hf]; exact ite_eq_or_eq _ _ _⟩
  · obtain ⟨⟨f, n, hs, hf⟩, -⟩ := process_of_not_completes cfg playing hc
    rw [hs]
    exact .inl hf

/-- The events of the items that are looked for. -/
theorem eq_of_event :
    (item.event? s = some (.trigger .textReady) → ∃ turn, item = .ttsStarted turn) ∧
      (∀ endCall timeout, item.event? s = some (.trigger (.playbackFinished false endCall timeout)) →
        s.pendingEndCall = endCall ∧ ∃ turn, item = .playbackFinished turn) ∧
      (∀ endCall timeout, item.event? s = some (.trigger (.playbackFinished true endCall timeout)) →
        item = .playbackCancelled) ∧
      (∀ q r, item.event? s = some (.trigger (.transferRequested q r)) →
        ∃ request, item = .transferRequest request) := by
  cases item
  case speechStarted energyDb =>
    simp only [SessionItem.event?]
    split <;> simp
  case transferBody | terminate | speechEnded =>
    simp only [SessionItem.event?]
    split_ifs <;> simp
  all_goals simp +contextual [SessionItem.event?]

theorem process_speaking (h : (process cfg playing item x).session.fsm.state = .speaking) :
    x.session.fsm.state = .speaking ∨ x.session.fsm.state = .synthesizing := by
  rcases process_state cfg playing item x with
    hn | ⟨-, hr | hr⟩
  · rcases nextState_cases x.session item with hs | ⟨e, -, hv, ht⟩
    · exact .inl (hs.symm.trans (hn.symm.trans h))
    · rw [← hn, h] at ht
      have he : e = .trigger .firstAudioChunk := CallFSM.Event.eq_of_target_speaking ht
      subst he
      exact .inr (of_decide_eq_true hv)
  · cases hr.symm.trans h
  · cases hr.symm.trans h

theorem process_synthesizing (h : (process cfg playing item x).session.fsm.state = .synthesizing) :
    x.session.fsm.state = .synthesizing ∨
      x.session.fsm.state = .thinking ∧ ∃ turn, item = .ttsStarted turn := by
  rcases process_state cfg playing item x with
    hn | ⟨-, hr | hr⟩
  · rcases nextState_cases x.session item with hs | ⟨e, he, hv, ht⟩
    · exact .inl (hs.symm.trans (hn.symm.trans h))
    · rw [← hn, h] at ht
      have heq : e = .trigger .textReady := CallFSM.Event.eq_of_target_synthesizing ht
      subst heq
      exact .inr ⟨of_decide_eq_true hv, eq_of_event.1 he⟩
  · cases hr.symm.trans h
  · cases hr.symm.trans h

end CallSession

namespace SessionThreads

open CallSession

variable {cfg : CallFsmTimerConfig} {playing : Bool} {item : SessionItem} {x : Exec}

/-- A call of a handler posts the body of a transfer, at most, -/
theorem posted_callEffects {s : CallSession} {c : HandlerCall} {e : SessionEffect}
    {i : SessionItem} (he : e ∈ callEffects s c) (hi : posted e = some i) :
    ∃ destination reason, i = .transferBody destination reason := by
  cases c
  case onStateChanged source target trigger =>
    simp only [callEffects] at he
    split_ifs at he
    · obtain ⟨frame, -, rfl⟩ := List.mem_map.1 he
      cases hi
    · cases he
  case onTransferRequested destination reason =>
    obtain rfl := List.mem_singleton.1 he
    exact ⟨destination, reason, (Option.some.inj hi).symm⟩
  case onTransferCompleted success destination =>
    simp only [callEffects, List.mem_append, List.mem_map, List.mem_singleton] at he
    rcases he with ⟨type, -, rfl⟩ | rfl
    · cases hi
    · cases success <;> cases hi
  case onSessionClose reason =>
    simp only [callEffects, List.mem_cons] at he
    rcases he with rfl | he
    · cases hi
    · split_ifs at he
      · cases he
      · obtain rfl := List.mem_singleton.1 he
        cases hi
  case onSpeechEnded | onPlaybackFinished | onConversationFinalized =>
    obtain rfl := List.mem_singleton.1 he
    cases hi
  all_goals cases he

/-- what comes before it the cancel of the playback, -/
theorem posted_prepare (hx : x.effects = []) {e : SessionEffect} {i : SessionItem}
    (he : e ∈ (prepare playing item x).effects) (hi : posted e = some i) :
    i = .playbackCancelled := by
  cases item
  case audioFrame frame =>
    simp only [prepare, onAudioFrame] at he
    split_ifs at he <;> simp_all [emit, posted]
  case transferBody destination reason =>
    simp only [prepare] at he
    split_ifs at he <;> simp [emit, hx] at he
    · simp_all [posted]
    · rcases he with rfl | rfl
      · cases hi
      · cases hi
  case speechStarted energyDb =>
    have he : e = .cancelPlayback ∨ e = .cancelGeneration := by
      cases playing <;> simp only [prepare] at he <;> split at he <;>
        simp_all [emit, startCapture]
    rcases he with rfl | rfl <;> cases hi
    rfl
  case speechEnded =>
    simp only [prepare] at he
    split_ifs at he <;> simp_all
  all_goals simp_all [prepare]

/-- and an item nothing else. -/
theorem posted_process (hx : x.effects = []) (i : SessionItem)
    (hi : i ∈ (process cfg playing item x).effects.filterMap posted) :
    i = .playbackCancelled ∨ ∃ destination reason, i = .transferBody destination reason := by
  obtain ⟨e, he, hi⟩ := List.mem_filterMap.1 hi
  by_cases hc : Completes x.session item
  · rw [(process_of_completes _ _ hc).2, hx] at he
    simp only [List.nil_append, List.mem_append, List.mem_singleton] at he
    rcases he with he | rfl
    · split_ifs at he
      · rw [List.mem_append, List.mem_map, List.mem_singleton] at he
        rcases he with ⟨frame, -, rfl⟩ | rfl <;> cases hi
      · rw [List.append_nil, List.mem_map] at he
        obtain ⟨frame, -, rfl⟩ := he
        cases hi
      · cases he
    · cases hi
  · rw [(process_of_not_completes _ _ hc).2, List.mem_append] at he
    rcases he with he | he
    · exact .inl (posted_prepare hx he hi)
    · obtain ⟨c, -, he⟩ := List.mem_flatMap.1 he
      exact .inr (posted_callEffects he hi)

end SessionThreads

end Yuviz.Gateway
