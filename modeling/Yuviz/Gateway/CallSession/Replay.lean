import Mathlib
import Yuviz.Gateway.CallSession.BargeIn

/-!
# The replay of a barge-in

A monitor keeps what is heard of the caller from the start of a capture on
(`hear`), and knows what the completion of the barge-in is to replay
(`Interjection.replay`). The session replays just that (`reachable_replays`),
in the runs where no new onset finds the capture of the last one.
-/

namespace Yuviz.Gateway

namespace CallSession

/-- What is heard of the caller in a barge-in: his frames, from those before the
    onset on, and the end of his speech, if nothing has been heard since. -/
structure Interjection where
  frames : List AudioFrame
  ended : Option (ℕ × Int) := none
  deriving DecidableEq, Repr

/-- The replay of an interjection, if there is anything to replay. -/
def Interjection.replay (i : Interjection) : List SessionEffect :=
  if i.frames = [] ∧ i.ended.isSome then []
  else (i.frames.take kMaxBargeInFrames).map .sendAudio ++
    i.ended.toList.map fun e => .sendSpeechEnded e.1 e.2

/-- What is heard with an item: an interjection starts with a capture, and is
    over with the barge-in. -/
def hear (s : CallSession) (item : SessionItem) : Option Interjection → Option Interjection
  | none => if StartsCapture s item then some ⟨s.preroll, none⟩ else none
  | some i =>
    match item with
    | .audioFrame frame => some { i with frames := i.frames ++ [frame] }
    | .speechStarted _ => some { i with ended := none }
    | .speechEnded durationMs energyDb => some { i with ended := some (durationMs, energyDb) }
    | .cancelAck | .timerFired .bargeInWindow => if s.fsm.state = .bargeIn then none else some i
    | _ => some i

/-- The item is a frame of the caller. -/
def isFrame : SessionItem → Bool
  | .audioFrame _ => true
  | _ => false

/-- With a capture up, the item is no frame of another utterance, and no new
    onset that finds frames to discard, or an end of speech that it leaves. -/
def KeepsInterjection (s : CallSession) (item : SessionItem) : Prop :=
  s.bargeInCapture = true →
    (s.fsm.state = .recognizing → isFrame item = false) ∧
      (StartsCapture s item → s.bargeInBuffer = []) ∧
        (isOnset item = true → ¬StartsCapture s item → s.pendingSpeechEnded = false)

instance (s : CallSession) (item : SessionItem) : Decidable (KeepsInterjection s item) :=
  inferInstanceAs (Decidable (_ → (_ → _) ∧ (_ → _) ∧ (_ → _ → _)))

/-- The session has kept the interjection. -/
structure Keeps (s : CallSession) (i : Interjection) : Prop where
  capture : s.bargeInCapture = true
  preroll : s.preroll = []
  buffer : s.bargeInBuffer = i.frames.take kMaxBargeInFrames
  pending : s.pendingSpeechEnded = i.ended.isSome
  ended : ∀ e ∈ i.ended, s.pendingSeDurationMs = e.1 ∧ s.pendingSeEnergyDb = e.2

/-- The session has kept what was heard. -/
def Kept (s : CallSession) (m : Option Interjection) : Prop :=
  s.preroll.length ≤ kPrerollFrames ∧ m.elim (s.bargeInCapture = false) (Keeps s)

variable {cfg : CallFsmTimerConfig} {playing : Bool} {item : SessionItem} {x : Exec}
  {s : CallSession} {i : Interjection} {m : Option Interjection}

/-- The item is of the caller. -/
def isHeard : SessionItem → Bool
  | .audioFrame _ | .speechStarted _ | .speechEnded .. => true
  | _ => false

/-- The fields of a capture, which the other items leave. -/
def captured (s : CallSession) : List AudioFrame × List AudioFrame × Bool × Bool × ℕ × Int :=
  (s.preroll, s.bargeInBuffer, s.bargeInCapture, s.pendingSpeechEnded, s.pendingSeDurationMs,
    s.pendingSeEnergyDb)

theorem prepare_captured (playing : Bool) (h : isHeard item = false) :
    captured (prepare playing item x).session = captured x.session := by
  cases item
  case audioFrame | speechStarted | speechEnded => cases h
  case transferBody destination reason =>
    simp only [prepare]
    split_ifs <;> rfl
  all_goals rfl

/-- One more frame, of which a full buffer takes none. -/
theorem take_concat (frames : List AudioFrame) (frame : AudioFrame) (k : ℕ) :
    (frames ++ [frame]).take k =
      if (frames.take k).length < k then frames.take k ++ [frame] else frames.take k := by
  rw [List.length_take]
  split_ifs with h
  · have hlt : frames.length < k := by omega
    rw [List.take_of_length_le (Nat.le_of_lt hlt), List.take_of_length_le (by rw [List.length_append]; exact hlt)]
  · have hle : k ≤ frames.length := by omega
    rw [List.take_append_of_le_length hle]

theorem hear_none (h : ¬StartsCapture s item) : hear s item none = none := by
  simp [hear, h]

/-- The other items go unheard, up to the completion of the barge-in. -/
theorem hear_some (h : isHeard item = false) (hcap : s.bargeInCapture = true)
    (hc : ¬Completes s item) : hear s item (some i) = some i := by
  cases item
  case audioFrame | speechStarted | speechEnded => cases h
  case cancelAck => exact if_neg fun hb => hc ⟨hb, hcap, .inl rfl⟩
  case timerFired type =>
    cases type
    case bargeInWindow => exact if_neg fun hb => hc ⟨hb, hcap, .inr rfl⟩
    all_goals rfl
  all_goals rfl

/-- What is kept depends on the fields of the capture only. -/
theorem Kept.of_captured {t : CallSession} (h : Kept s m) (ht : captured t = captured s) :
    Kept t m := by
  simp only [captured, Prod.mk.injEq] at ht
  obtain ⟨hp, hb, hc, hse, hd, he⟩ := ht
  refine ⟨hp ▸ h.1, ?_⟩
  cases m with
  | none => exact hc.trans h.2
  | some i =>
    have hk : Keeps s i := h.2
    exact ⟨hc.trans hk.capture, hp.trans hk.preroll, hb.trans hk.buffer, hse.trans hk.pending,
      fun e hi => ⟨hd.trans (hk.ended e hi).1, he.trans (hk.ended e hi).2⟩⟩

/-- A capture starts, or starts again. -/
theorem Kept.prepare_of_startsCapture (h : Kept s m) (hk : KeepsInterjection s item)
    (hst : StartsCapture s item) :
    Kept (prepare playing item ⟨s, []⟩).session (hear s item m) := by
  obtain ⟨hp, hm⟩ := h
  obtain ⟨energyDb, hs⟩ :=
    CallSession.prepare_of_startsCapture playing (x := ⟨s, []⟩) hst
  rw [hs]
  refine ⟨Nat.zero_le _, ?_⟩
  cases m with
  | none =>
    simp only [hear, hst, if_true]
    exact ⟨rfl, rfl, (List.take_of_length_le (Nat.le_trans hp (by decide))).symm, rfl, nofun⟩
  | some i =>
    have hm : Keeps s i := hm
    have hbuf : s.bargeInBuffer = [] := (hk hm.capture).2.1 hst
    obtain ⟨ho, hst⟩ := hst
    cases item <;> cases ho
    exact ⟨rfl, rfl, hm.preroll.trans (hbuf.symm.trans hm.buffer), rfl, nofun⟩

theorem Kept.prepare_audioFrame {frame : AudioFrame} (h : Kept s m)
    (hk : KeepsInterjection s (.audioFrame frame)) :
    Kept (onAudioFrame frame ⟨s, []⟩).session (hear s (.audioFrame frame) m) := by
  obtain ⟨hp, hm⟩ := h
  cases m with
  | none =>
    have hcap : s.bargeInCapture = false := hm
    rw [hear_none (by simp [StartsCapture, isOnset])]
    simp only [onAudioFrame, hcap, Bool.false_eq_true, if_false]
    split_ifs with hr hfull
    · exact ⟨hp, hcap⟩
    · refine ⟨?_, rfl⟩
      simp only [List.length_tail, List.length_append, List.length_singleton]
      omega
    · exact ⟨Nat.le_of_not_lt hfull, rfl⟩
  | some i =>
    have hm : Keeps s i := hm
    have hr : s.fsm.state ≠ .recognizing :=
      fun hr => absurd ((hk hm.capture).1 hr) (by simp [isFrame])
    simp only [onAudioFrame, hr, if_false, hm.capture, if_true]
    split_ifs with hfull
    · refine ⟨hp, rfl, hm.preroll, ?_, hm.pending, hm.ended⟩
      rw [hm.buffer] at hfull
      simp only [hm.buffer]
      rw [take_concat, if_pos hfull]
    · refine ⟨hp, hm.capture, hm.preroll, ?_, hm.pending, hm.ended⟩
      rw [hm.buffer] at hfull
      rw [hm.buffer, take_concat, if_neg hfull]

/-- What is heard before the barge-in is over is kept. -/
theorem Kept.prepare (playing : Bool) (h : Kept s m) (hk : KeepsInterjection s item) (hc : ¬Completes s item) :
    Kept (prepare playing item ⟨s, []⟩).session (hear s item m) := by
  by_cases hst : StartsCapture s item
  · exact h.prepare_of_startsCapture hk hst
  have hnone : hear s item none = none := hear_none hst
  cases item
  case audioFrame frame => exact h.prepare_audioFrame hk
  case speechStarted energyDb =>
    have hs : s.fsm.state ∉ [CallFsmState.thinking, .synthesizing, .speaking] :=
      fun hs => hst ⟨rfl, hs⟩
    have hsame : (CallSession.prepare playing (.speechStarted energyDb) ⟨s, []⟩).session = s := by
      rw [prepare_speechStarted (x := ⟨s, []⟩) hs]
      split_ifs <;> rfl
    rw [hsame]
    cases m with
    | none => rwa [hnone]
    | some i =>
      obtain ⟨hp, hm⟩ := h
      have hm : Keeps s i := hm
      have hse : s.pendingSpeechEnded = false := (hk hm.capture).2.2 rfl hst
      exact ⟨hp, hm.capture, hm.preroll, hm.buffer, hse, nofun⟩
  case speechEnded durationMs energyDb =>
    simp only [CallSession.prepare]
    obtain ⟨hp, hm⟩ := h
    cases m with
    | none =>
      have hcap : s.bargeInCapture = false := hm
      rw [hnone, hcap]
      exact ⟨hp, hcap⟩
    | some i =>
      have hm : Keeps s i := hm
      rw [hm.capture]
      refine ⟨hp, rfl, hm.preroll, hm.buffer, rfl, ?_⟩
      rintro _ ⟨⟩
      exact ⟨rfl, rfl⟩
  all_goals
    refine Kept.of_captured (s := s) ?_ (prepare_captured _ (x := ⟨s, []⟩) rfl)
    cases m with
    | none => rwa [hnone]
    | some i => rwa [hear_some rfl (Keeps.capture h.2) hc]

/-- What is kept is replayed. -/
theorem Keeps.replay (h : Keeps s i) :
    (if HasReplay s then
        (s.preroll ++ s.bargeInBuffer).map .sendAudio ++
          if s.pendingSpeechEnded then [.sendSpeechEnded s.pendingSeDurationMs s.pendingSeEnergyDb]
          else []
      else []) = i.replay := by
  obtain ⟨frames, ended⟩ := i
  have hbuf : s.bargeInBuffer = [] ↔ frames = [] := by
    rw [h.buffer, List.take_eq_nil_iff]
    simp [kMaxBargeInFrames]
  have hrep : HasReplay s ↔ ¬(frames = [] ∧ ended.isSome) := by
    rw [HasReplay, ne_eq, hbuf, h.pending]
    simp [imp_iff_not_or]
  unfold Interjection.replay
  by_cases hr : HasReplay s
  · rw [if_pos hr, if_neg (hrep.1 hr), h.preroll, h.buffer, h.pending]
    cases ended with
    | none => rfl
    | some e =>
      obtain ⟨hd, he⟩ := h.ended e rfl
      rw [hd, he]
      rfl
  · rw [if_neg hr, if_pos (not_not.1 fun hn => hr (hrep.2 hn))]

/-- What is heard with an item is kept, or has been replayed. -/
theorem Kept.process (h : Kept s m) (hk : KeepsInterjection s item) :
    Kept (process cfg playing item ⟨s, []⟩).session (hear s item m) := by
  by_cases hc : Completes s item
  · obtain ⟨⟨f, n, hs, -⟩, -⟩ := process_of_completes cfg playing (x := ⟨s, []⟩) hc
    obtain ⟨hb, hcap, hitem⟩ := hc
    have hm : hear s item m = none := by
      cases m with
      | none => exact absurd (hcap.symm.trans h.2) (by decide)
      | some i => rcases hitem with rfl | rfl <;> exact if_pos hb
    rw [hs, hm]
    refine ⟨?_, rfl⟩
    simp only
    split_ifs
    · exact Nat.zero_le _
    · exact h.1
  · obtain ⟨⟨f, n, hs, -⟩, -⟩ :=
      process_of_not_completes cfg playing (x := ⟨s, []⟩) hc
    obtain ⟨hp, hm⟩ := h.prepare playing hk hc
    rw [hs]
    -- The preroll may have been sent.
    refine ⟨?_, ?_⟩
    · simp only
      split_ifs
      · exact Nat.zero_le _
      · exact hp
    · generalize hear s item m = m' at hm ⊢
      cases m' with
      | none => exact hm
      | some i =>
        have hm : Keeps _ i := hm
        refine ⟨hm.capture, ?_, hm.buffer, hm.pending, hm.ended⟩
        simp only [hm.preroll, ite_self]

end CallSession

namespace SessionThreads

open CallSession

variable {cfg : CallFsmTimerConfig} {maxFrames : ℕ} {callId callerDid : String} {s : SessionThreads}
  {m : Option Interjection}

/-- The completion of a barge-in replays what was heard. -/
def Replays (cfg : CallFsmTimerConfig) (s : SessionThreads) (m : Option Interjection) : Prop :=
  s.session.fsm.state = .bargeIn →
    ∀ item, item = .cancelAck ∨ item = .timerFired .bargeInWindow →
      (processed cfg s item).effects = m.elim [] Interjection.replay ++ [.sendPlaybackFinished true]

theorem reachable_kept
    (hs : ((system cfg maxFrames callId callerDid).monitored none (observe hear)).ReachableIf
      (fun s l => Processes KeepsInterjection s.1 l) (s, m)) : Kept s.session m := by
  have hinit : Kept { callId := callId, callerDid := callerDid } none := ⟨Nat.zero_le _, rfl⟩
  exact monitored_invariant hinit (fun _ _ _ h => h.of_captured rfl)
    (fun _ _ _ _ h hk => h.process hk) hs

/-- In every run in which no new onset of speech finds the capture of another
    one, a barge-in is replayed as it was heard. -/
theorem reachable_replays
    (hs : ((system cfg maxFrames callId callerDid).monitored none (observe hear)).ReachableIf
      (fun s l => Processes KeepsInterjection s.1 l) (s, m)) : Replays cfg s m := by
  intro hb item hitem
  obtain ⟨-, hm⟩ := reachable_kept hs
  cases m with
  | none =>
    have hcap : s.session.bargeInCapture = false := hm
    have hn : ¬Completes s.session item := by simp [Completes, hcap]
    rw [processed, (process_of_not_completes _ _ (x := ⟨s.session, []⟩) hn).2]
    rcases hitem with rfl | rfl <;>
      simp [prepare, CallSession.calls, SessionItem.event?, CallFSM.Event.outline, hb,
        CallFSM.Event.valid, CallFSM.Event.target?, CallFSM.Event.handler?,
        CallFSM.Event.handlerFirst, callEffects]
  | some i =>
    have hm : Keeps s.session i := hm
    have hc : Completes s.session item := ⟨hb, hm.capture, hitem⟩
    rw [processed, (process_of_completes _ _ (x := ⟨s.session, []⟩) hc).2, hm.replay]
    rfl

/-- The caller says something and is heard to stop. -/
theorem reachable_replays_ended :
    ∃ s m, (system {} 100 "call" "caller").Reachable s ∧ s.session.fsm.state = .bargeIn ∧
      m = some ⟨[⟨7⟩], some (300, -20)⟩ ∧ Replays {} s m := by
  have hexec : (((system {} 100 "call" "caller").monitored none (observe hear)).execIf
      (fun s l => Processes KeepsInterjection s.1 l)
      ((system {} 100 "call" "caller").monitored none (observe hear)).init
      (firstTurn ++ ([.event (.speechStarted 0), .control, .control, .event (.audioFrame ⟨7⟩),
        .control, .event (.speechEnded 300 (-20)), .control] : List Label))).map
        (fun s => (s.1.session.fsm.state, s.2)) =
      some (.bargeIn, some ⟨[⟨7⟩], some (300, -20)⟩) := by
    decide
  obtain ⟨⟨s, m⟩, hs, hr⟩ := Option.map_eq_some_iff.1 hexec
  have hs : ((system {} 100 "call" "caller").monitored none (observe hear)).ReachableIf
      (fun s l => Processes KeepsInterjection s.1 l) (s, m) := System.ReachableIf.execIf .init hs
  exact ⟨s, m, hs.of_monitored.reachable, congrArg Prod.fst hr, congrArg Prod.snd hr,
    reachable_replays hs⟩

/-- The caller stops and starts again, before and after the cancel is noted: the
    first frame is lost, and the end of speech is replayed. -/
theorem not_reachable_replays :
    ¬∀ s m, ((system {} 100 "call" "caller").monitored none (observe hear)).Reachable (s, m) →
      Replays {} s m := by
  intro h
  have hexec : (((system {} 100 "call" "caller").monitored none (observe hear)).exec
      ((system {} 100 "call" "caller").monitored none (observe hear)).init
      (firstTurn ++ ([.event (.speechStarted 0), .event (.audioFrame ⟨7⟩),
        .event (.speechStarted 0), .control, .control, .control, .control, .control,
        .event (.audioFrame ⟨8⟩), .control, .event (.speechEnded 300 (-20)), .control,
        .event (.speechStarted 0), .control] : List Label))).map
        (fun s => (s.1.session.fsm.state, (processed {} s.1 .cancelAck).effects, s.2)) =
      some (.bargeIn, [.sendAudio ⟨8⟩, .sendSpeechEnded 300 (-20), .sendPlaybackFinished true],
        some ⟨[⟨7⟩, ⟨8⟩], none⟩) := by
    decide
  obtain ⟨⟨s, m⟩, hs, hr⟩ := Option.map_eq_some_iff.1 hexec
  simp only [Prod.mk.injEq] at hr
  obtain ⟨hb, heff, rfl⟩ := hr
  have hn := h s _ (System.Reachable.exec .init hs) hb .cancelAck (.inl rfl)
  exact absurd (heff.symm.trans hn) (by decide)

end SessionThreads

end Yuviz.Gateway
