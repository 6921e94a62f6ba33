import Mathlib
import Yuviz.Conversation.Servicer

/-!
# The framing of utterances

The audio of an utterance is what arrives between the end of the last one, or a
cancel, and its own end (`utterance`). The session buffers it as it is taken
from the queue, if the state of the call lets it; a turn that is streaming takes
the audio for the end of the utterance it answers, and puts the end of the next
one behind whatever follows it.

The handler gets exactly the utterance if none of its audio was thrown away,
nothing is left of an utterance that was ignored, and an end is only set aside
with nothing behind it (`reachable_framed`).
-/

namespace Yuviz.Conversation

namespace Servicer

/-- The audio of the current utterance, after the message `m`. -/
def frame (audio : Bytes) : Option GatewayMessage → Bytes
  | some (.audioChunk payload) => audio ++ payload
  | some (.speechEnded ..) | some (.cancelGeneration _) => []
  | _ => audio

/-- The audio that has arrived since the last end of an utterance, or the last cancel. -/
def utterance (arrived : List (Option GatewayMessage)) : Bytes := arrived.foldl frame []

/-- The message bounds an utterance, or is part of one; so does the end of the stream. -/
def isFraming : Option GatewayMessage → Bool
  | none | some (.audioChunk _) | some (.speechEnded ..) | some (.cancelGeneration _) => true
  | _ => false

def isSpeechEnded : Option GatewayMessage → Bool
  | some (.speechEnded ..) => true
  | _ => false

/-- The audio taken now goes to the buffer. -/
def buffers (s : Servicer) : Bool :=
  match s.pc with
  | .speech t _ => t.cancelled && s.session.fsm.canAcceptAudio
  | _ => s.session.fsm.canAcceptAudio

/-- Whether the buffer differs from the utterance: audio was thrown away, or is
    left of an utterance that was ignored. -/
def spoil (spoilt : Bool) (s : Servicer) (l : Label) : Bool :=
  match l, s.queue.head? with
  | .take, some (some (.speechEnded ..), _) =>
    if s.session.acceptsSpeech then false else s.session.audioBuffer ≠ []
  | .take, some (some (.audioChunk payload), _) | .drain, some (some (.audioChunk payload), _) =>
    spoilt || payload ≠ [] && !s.buffers
  | .take, some (some (.cancelGeneration _), _) | .drain, some (some (.cancelGeneration _), _) =>
    false
  | .drain, some (none, _) => true
  | _, _ => spoilt

/-- The end of an utterance is only set aside with no audio, end, cancel or end
    of the stream behind it, and only starts a turn on an unspoilt buffer. -/
def Framed (s : Servicer × Bool) : Label → Prop
  | .drain => ∀ m ∈ s.1.queue.head?, isSpeechEnded m.1 = true →
      ∀ m' ∈ s.1.queue.tail, isFraming m'.1 = false
  | .take => ∀ m ∈ s.1.queue.head?, isSpeechEnded m.1 = true →
      s.1.session.acceptsSpeech = true → s.2 = false
  | _ => True

instance (s : Servicer × Bool) : (l : Label) → Decidable (Framed s l)
  | .drain => inferInstanceAs (Decidable (∀ m ∈ s.1.queue.head?, _ → ∀ m' ∈ s.1.queue.tail, _))
  | .take => inferInstanceAs (Decidable (∀ m ∈ s.1.queue.head?, _ → _ → _))
  | .greet _ | .arrive _ | .respond _ | .deliver | .exhaust | .fail =>
    inferInstanceAs (Decidable True)

/-- The servicer, with whether the buffer is spoilt. -/
def framing (textOnly : Bool) : System (Servicer × Bool) Label :=
  (system textOnly).monitored false spoil

variable {textOnly spoilt : Bool} {s : Servicer} {l : Label}

theorem utterance_concat (arrived : List (Option GatewayMessage)) (m : Option GatewayMessage) :
    utterance (arrived ++ [m]) = frame (utterance arrived) m := by
  rw [utterance, List.foldl_append]
  rfl

/-- What is not framing leaves the utterance alone. -/
theorem utterance_append {arrived ms : List (Option GatewayMessage)}
    (h : ∀ m ∈ ms, isFraming m = false) : utterance (arrived ++ ms) = utterance arrived := by
  induction ms using List.reverseRecOn with
  | nil => rw [List.append_nil]
  | append_singleton ms m ih =>
    rw [← List.append_assoc, utterance_concat, ih fun m hm => h m (List.mem_append_left _ hm)]
    have hm := h m (by simp)
    rcases m with _ | m
    · cases hm
    · cases m <;> first | rfl | cases hm

/-- The arrivals before the one with the number `n`. -/
theorem take_of_zipIdx {α : Type*} {l : List α} {xs ys : List (α × ℕ)} {a : α} {n : ℕ}
    (h : l.zipIdx = xs ++ (a, n) :: ys) : l.take n = xs.map Prod.fst := by
  have hn : n = xs.length := by
    have hget : l.zipIdx[xs.length]? = some (a, n) := by rw [h]; simp
    rw [List.getElem?_zipIdx] at hget
    obtain ⟨b, -, hb⟩ := Option.map_eq_some_iff.1 hget
    simpa using (congrArg Prod.snd hb).symm
  have hl : l = l.zipIdx.map Prod.fst := by simp
  rw [hn, hl, h]
  simp

/-- The messages of the queue that frame utterances are those that have arrived
    and were not `taken`, in order; and the buffer, unless it is spoilt, holds the
    current utterance of those taken. -/
structure Frames (s : Servicer × Bool) (taken pending : List (Option GatewayMessage × ℕ)) :
    Prop where
  arrived_eq : s.1.arrived.zipIdx = taken ++ pending
  queue_eq : (s.1.queue.filter fun m => isFraming m.1) = pending.filter fun m => isFraming m.1
  buffer_eq : s.1.pc ≠ .closed → s.2 = false →
    s.1.session.audioBuffer = utterance (taken.map Prod.fst)
  /-- Nothing arrives after the end of the stream. -/
  end_last : ∀ xs ys, s.1.arrived = xs ++ none :: ys → ys = []

variable {taken pending queue : List (Option GatewayMessage × ℕ)} {m : Option GatewayMessage × ℕ}

/-- The first message of the queue, if it is framing, is the next to be taken. -/
theorem Frames.cons (h : Frames (s, spoilt) taken pending) (hq : s.queue = m :: queue)
    (hm : isFraming m.1 = true) :
    ∃ skipped pending', s.arrived.zipIdx = taken ++ skipped ++ m :: pending' ∧
      (queue.filter fun m => isFraming m.1) = pending'.filter (fun m => isFraming m.1) ∧
      utterance ((taken ++ skipped).map Prod.fst) = utterance (taken.map Prod.fst) := by
  have hqueue : (s.queue.filter fun m => isFraming m.1) = pending.filter fun m => isFraming m.1 :=
    h.queue_eq
  rw [hq, List.filter_cons, if_pos hm, eq_comm, List.filter_eq_cons_iff] at hqueue
  obtain ⟨skipped, pending', rfl, hskip, -, hpending⟩ := hqueue
  refine ⟨skipped, pending', ?_, hpending.symm, ?_⟩
  · rw [h.arrived_eq, List.append_assoc]
  · rw [List.map_append, utterance_append]
    intro m hm
    obtain ⟨x, hx, rfl⟩ := List.mem_map.1 hm
    simpa using hskip x hx

/-- A step that takes nothing from the queue and leaves the buffer alone. -/
theorem Frames.congr (h : Frames (s, spoilt) taken pending) {s' : Servicer} {spoilt' : Bool}
    (ha : s'.arrived = s.arrived)
    (hq : (s'.queue.filter fun m => isFraming m.1) = s.queue.filter fun m => isFraming m.1)
    (hb : s'.pc ≠ .closed → spoilt' = false → s.pc ≠ .closed ∧ spoilt = false ∧
      s'.session.audioBuffer = s.session.audioBuffer) : Frames (s', spoilt') taken pending := by
  refine ⟨?_, ?_, fun hpc hs => ?_, ?_⟩
  · simpa only [ha] using h.arrived_eq
  · simpa only [hq] using h.queue_eq
  · obtain ⟨hpc', hs', hbuffer⟩ := hb hpc hs
    exact hbuffer.trans (h.buffer_eq hpc' hs')
  · simpa only [ha] using h.end_last

/-- A framing message is taken. -/
theorem Frames.next (h : Frames (s, spoilt) taken pending) (hq : s.queue = m :: queue)
    (hm : isFraming m.1 = true) {s' : Servicer} {spoilt' : Bool} (ha : s'.arrived = s.arrived)
    (hq' : s'.queue = queue)
    (hb : s'.pc ≠ .closed → spoilt' = false → ∀ audio,
      (s.pc ≠ .closed → spoilt = false → s.session.audioBuffer = audio) →
        s'.session.audioBuffer = frame audio m.1) :
    ∃ taken' pending', Frames (s', spoilt') taken' pending' := by
  obtain ⟨skipped, pending', harr, hpending, hutt⟩ := h.cons hq hm
  refine ⟨taken ++ skipped ++ [m], pending', ?_, ?_, fun hpc hs => ?_, ?_⟩
  · simp [ha, harr]
  · simp only [hq', hpending]
  · rw [List.map_append, List.map_singleton, utterance_concat, hutt]
    exact hb hpc hs _ h.buffer_eq
  · simpa only [ha] using h.end_last

/-- The end of the stream has nothing framing behind it. -/
theorem Frames.tail_of_none (h : Frames (s, spoilt) taken pending) {n : ℕ}
    (hq : s.queue = (none, n) :: queue) : ∀ m ∈ queue, isFraming m.1 = false := by
  obtain ⟨skipped, pending', harr, hpending, -⟩ := h.cons hq rfl
  have hl : s.arrived = s.arrived.zipIdx.map Prod.fst := by simp
  rw [harr, List.map_append, List.map_cons] at hl
  have hnil : pending' = [] := List.map_eq_nil_iff.1 (h.end_last _ _ hl)
  rw [hnil, List.filter_nil, List.filter_eq_nil_iff] at hpending
  simpa using hpending

theorem Frames.arrive (h : Frames (s, spoilt) taken pending) (hn : none ∉ s.arrived)
    (m : Option GatewayMessage) :
    Frames ({ s with
      arrived := s.arrived ++ [m], queue := s.queue ++ [(m, s.arrived.length)] }, spoilt)
      taken (pending ++ [(m, s.arrived.length)]) := by
  refine ⟨?_, ?_, h.buffer_eq, fun xs ys hxs => ?_⟩
  · have ha : s.arrived.zipIdx = taken ++ pending := h.arrived_eq
    simp [List.zipIdx_append, ha]
  · have hq : (s.queue.filter fun m => isFraming m.1) = pending.filter fun m => isFraming m.1 :=
      h.queue_eq
    simp [List.filter_append, hq]
  · rcases List.eq_nil_or_concat ys with rfl | ⟨ys', y, rfl⟩
    · rfl
    · have hxs' : s.arrived ++ [m] = (xs ++ none :: ys') ++ [y] := by simpa using hxs
      obtain ⟨ha, -⟩ := List.append_inj' hxs' rfl
      exact absurd (ha ▸ by simp) hn

/-- A message set aside with nothing framing behind it keeps its place. -/
theorem filter_setAside (m : Option GatewayMessage × ℕ)
    (h : ∀ m ∈ queue, isFraming m.1 = false) :
    ((queue ++ [m]).filter fun m => isFraming m.1) =
      (m :: queue).filter fun m => isFraming m.1 := by
  have hnil : (queue.filter fun m => isFraming m.1) = [] :=
    List.filter_eq_nil_iff.2 (by simpa using h)
  rw [List.filter_append, List.filter_cons, List.filter_cons, hnil, List.filter_nil]
  split_ifs <;> rfl

theorem pushAudio_audioBuffer {payload : Bytes} {x : ConversationSession} :
    (x.pushAudio payload).1.audioBuffer =
      if x.fsm.canAcceptAudio then x.audioBuffer ++ payload else x.audioBuffer := by
  rw [ConversationSession.pushAudio]
  split_ifs <;> rfl

theorem playbackFinished_audioBuffer (interrupted : Bool) (s : Servicer) :
    (s.playbackFinished interrupted).1.session.audioBuffer = s.session.audioBuffer := by
  simp only [playbackFinished]
  split
  · rfl
  · split
    · rfl
    · split_ifs <;> rfl

/-- What is not framing leaves the buffer alone. -/
theorem receive_audioBuffer {m : Option GatewayMessage} (hm : isFraming m = false) (s : Servicer) :
    (s.receive m).1.session.audioBuffer = s.session.audioBuffer ∧
      ((s.receive m).1.pc ≠ .closed ∨ (s.receive m).1.pc = s.pc) := by
  rcases m with _ | m
  · cases hm
  · cases m
    case playbackFinished interrupted =>
      exact ⟨playbackFinished_audioBuffer _ _, .inr (playbackFinished_frame _ _).2.2⟩
    case textInput text =>
      simp only [receive]
      split_ifs
      · exact ⟨rfl, .inl (by simp)⟩
      · exact ⟨rfl, .inr rfl⟩
    case transferFailed destination reason transferId => exact ⟨rfl, .inl (by rintro ⟨⟩)⟩
    all_goals first | exact ⟨rfl, .inr rfl⟩ | cases hm

/-- The outer loop takes a message. -/
theorem Frames.take (h : Frames (s, spoilt) taken pending) (hpc : s.pc = .receiving)
    (hq : s.queue = m :: queue) :
    ∃ taken' pending', Frames ((receive m.1 { s with queue := queue }).1, spoil spoilt s .take)
      taken' pending' := by
  have hopen : s.pc ≠ .closed := by simp [hpc]
  obtain ⟨hrq, hra⟩ := receive_frame m.1 { s with queue := queue }
  by_cases hm : isFraming m.1 = true
  · refine h.next hq hm hra hrq fun hclosed hspoil audio haudio => ?_
    obtain ⟨m, n⟩ := m
    rcases m with _ | m
    · exact absurd rfl hclosed
    · cases m
      case audioChunk payload =>
        -- the audio is buffered, or empty
        simp only [spoil, hq, List.head?_cons, Bool.or_eq_false_iff] at hspoil
        obtain ⟨hs, hp⟩ := hspoil
        simp only [receive, pushAudio_audioBuffer, haudio hopen hs, frame]
        split_ifs with hacc
        · rfl
        · simp_all [buffers]
      case speechEnded durationMs energyDb =>
        simp only [spoil, hq, List.head?_cons] at hspoil
        simp only [receive]
        split_ifs at hspoil ⊢ with hacc
        · rfl
        · rw [(finishTurn_frame _ _).2.2.2]
          simpa [frame] using hspoil
      case cancelGeneration traceId => rfl
      all_goals cases hm
  · rw [Bool.not_eq_true] at hm
    obtain ⟨hb, -⟩ := receive_audioBuffer hm { s with queue := queue }
    refine ⟨taken, pending, h.congr hra (by simp [hrq, hq, hm]) fun _ hs => ⟨hopen, ?_, hb⟩⟩
    obtain ⟨m, n⟩ := m
    rcases m with _ | m
    · cases hm
    · cases m <;> first | simpa [spoil, hq] using hs | cases hm

/-- A turn that is streaming takes a message. -/
theorem Frames.drain (h : Frames (s, spoilt) taken pending) {t : SpeechTurn} {r : HandlerResponse}
    (hpc : s.pc = .speech t (.draining r)) (hq : s.queue = m :: queue)
    (hg : Framed (s, spoilt) .drain) :
    ∃ taken' pending', Frames ((drainOne t r m { s with queue := queue }).1, spoil spoilt s .drain)
      taken' pending' := by
  have hopen : s.pc ≠ .closed := by simp [hpc]
  obtain ⟨m, n⟩ := m
  rcases m with _ | m
  · have htail := h.tail_of_none hq
    refine ⟨taken, pending, h.congr rfl ?_ fun _ hs => ?_⟩
    · rw [hq]
      exact filter_setAside _ htail
    · simp [spoil, hq] at hs
  · cases m
    case audioChunk payload =>
      refine h.next hq rfl ?_ ?_ fun hclosed hspoil audio haudio => ?_
      · simp only [drainOne]
        split_ifs <;> rfl
      · simp only [drainOne]
        split_ifs <;> rfl
      · simp only [spoil, hq, List.head?_cons, Bool.or_eq_false_iff] at hspoil
        obtain ⟨hs, hp⟩ := hspoil
        have hb := haudio hopen hs
        simp only [buffers, hpc] at hp
        by_cases hc : t.cancelled = true
        · simp only [drainOne, hc, if_true, pushAudio_audioBuffer, hb, frame]
          split_ifs with hacc
          · rfl
          · simp_all
        · simp_all [drainOne, frame]
    case cancelGeneration traceId =>
      exact h.next hq rfl rfl rfl fun _ _ _ _ => rfl
    case playbackFinished interrupted =>
      obtain ⟨hpq, hpa, hpp⟩ := playbackFinished_frame interrupted { s with queue := queue }
      refine ⟨taken, pending, h.congr hpa ?_ fun _ hs => ⟨hopen, ?_, ?_⟩⟩
      · simp [drainOne, hpq, hq, isFraming]
      · simpa [spoil, hq] using hs
      · exact playbackFinished_audioBuffer _ _
    case speechEnded durationMs energyDb =>
      have htail : ∀ m ∈ queue, isFraming m.1 = false := by
        simpa [hq] using hg _ (by rw [hq]; rfl) rfl
      refine ⟨taken, pending, h.congr rfl ?_ fun _ hs => ⟨hopen, ?_, rfl⟩⟩
      · rw [hq]
        exact filter_setAside _ htail
      · simpa [spoil, hq] using hs
    all_goals
      refine ⟨taken, pending, h.congr rfl ?_ fun _ hs => ⟨hopen, ?_, rfl⟩⟩
      · simp [drainOne, hq, isFraming, List.filter_append]
      · simpa [spoil, hq] using hs

theorem respond_audioBuffer {r : HandlerResponse} {x : Servicer × List Output}
    (h : s.respond r = some x) :
    x.1.queue = s.queue ∧ x.1.arrived = s.arrived ∧
      x.1.session.audioBuffer = s.session.audioBuffer ∧ s.pc ≠ .closed := by
  have hturn : ∀ (kind) (t : ConversationSession.Turn),
      (t.respond kind r).session.audioBuffer = t.session.audioBuffer := by
    intro kind t
    simp only [ConversationSession.Turn.respond]
    split_ifs <;> rfl
  simp only [respond] at h
  split at h <;> cases h
  · exact ⟨rfl, rfl, hturn _ _, by simp [*]⟩
  · exact ⟨rfl, rfl, hturn _ _, by simp [*]⟩
  · refine ⟨rfl, rfl, ?_, by simp [*]⟩
    simp only [ConversationSession.respondRecovery]
    split_ifs <;> rfl

theorem exhaust_audioBuffer {x : Servicer × List Output} (h : s.exhaust = some x) :
    x.1.queue = s.queue ∧ x.1.arrived = s.arrived ∧
      x.1.session.audioBuffer = s.session.audioBuffer ∧ s.pc ≠ .closed := by
  have hturn : s.session.endTurn.audioBuffer = s.session.audioBuffer := by
    rw [ConversationSession.endTurn]
    split_ifs <;> rfl
  simp only [exhaust] at h
  split at h <;> cases h
  · obtain ⟨hq, ha, -, hs⟩ := finishTurn_frame _ { s with session := s.session.endTurn }
    exact ⟨hq, ha, by rw [hs]; exact hturn, by simp [*]⟩
  · exact ⟨rfl, rfl, hturn, by simp [*]⟩
  · refine ⟨rfl, rfl, ?_, by simp [*]⟩
    simp only [ConversationSession.endRecovery]
    split_ifs <;> rfl

theorem Frames.step {x : Servicer × List Output} (h : Frames (s, spoilt) taken pending)
    (hg : Framed (s, spoilt) l) (hst : s.step l = some x) :
    ∃ taken' pending', Frames (x.1, spoil spoilt s l) taken' pending' := by
  cases l
  case greet payloads =>
    simp only [Servicer.step] at hst
    split_ifs at hst with hpc
    cases hst
    exact ⟨taken, pending, h.congr rfl rfl fun _ hs => ⟨by simp [hpc], hs, rfl⟩⟩
  case arrive m =>
    simp only [Servicer.step] at hst
    split_ifs at hst with hn
    cases hst
    exact ⟨taken, _, h.arrive hn m⟩
  case take =>
    simp only [Servicer.step] at hst
    split at hst <;> cases hst
    rename_i m queue hpc hq
    exact h.take hpc hq
  case respond r =>
    obtain ⟨hq, ha, hb, hpc⟩ := respond_audioBuffer hst
    exact ⟨taken, pending, h.congr ha (by rw [hq]) fun _ hs => ⟨hpc, hs, hb⟩⟩
  case drain =>
    simp only [Servicer.step] at hst
    split at hst <;> cases hst
    rename_i t r m queue hpc hq
    exact h.drain hpc hq hg
  case deliver =>
    simp only [Servicer.step] at hst
    split at hst
    · rename_i t r hpc
      split_ifs at hst
      cases hst
      rw [deliver_frame]
      exact ⟨taken, pending, h.congr rfl rfl fun _ hs => ⟨by simp [hpc], hs, rfl⟩⟩
    · rename_i t r hpc
      cases hst
      rw [deliver_frame]
      exact ⟨taken, pending, h.congr rfl rfl fun _ hs => ⟨by simp [hpc], hs, rfl⟩⟩
    · cases hst
  case exhaust =>
    obtain ⟨hq, ha, hb, hpc⟩ := exhaust_audioBuffer hst
    exact ⟨taken, pending, h.congr ha (by rw [hq]) fun _ hs => ⟨hpc, hs, hb⟩⟩
  case fail =>
    simp only [Servicer.step] at hst
    split_ifs at hst
    cases hst
    exact ⟨taken, pending, h.congr rfl rfl fun hpc _ => absurd rfl hpc⟩

theorem reachable_frames {s : Servicer × Bool} (hs : (framing textOnly).ReachableIf Framed s) :
    ∃ taken pending, Frames s taken pending := by
  refine hs.invariant (I := fun s => ∃ taken pending, Frames s taken pending) ⟨[], [], ?_⟩ ?_
  · refine ⟨rfl, rfl, fun _ _ => rfl, fun xs ys h => ?_⟩
    simp [framing, System.monitored, system] at h
  · rintro ⟨s, spoilt⟩ l s' ⟨taken, pending, h⟩ hg hst
    obtain ⟨t, hst', rfl⟩ := Option.map_eq_some_iff.1 hst
    obtain ⟨x, hx, rfl⟩ := Option.map_eq_some_iff.1 hst'
    exact h.step hg hx

/-- In every run that keeps the order of the utterances, one that starts a turn
    on an unspoilt buffer gives the handler exactly its own audio. -/
theorem reachable_framed {s : Servicer × Bool} (hs : (framing textOnly).ReachableIf Framed s)
    {durationMs : ℕ} {energyDb : Int} {n : ℕ} (hpc : s.1.pc = .receiving)
    (hq : s.1.queue.head? = some (some (.speechEnded durationMs energyDb), n))
    (hacc : s.1.session.acceptsSpeech = true) (hg : Framed s .take) :
    (s.1.step .take).map Prod.snd =
      some [.call (.onSpeechEnded (utterance (s.1.arrived.take n)) durationMs energyDb)] := by
  obtain ⟨s, spoilt⟩ := s
  dsimp only at hpc hq hacc
  obtain ⟨taken, pending, h⟩ := reachable_frames hs
  obtain ⟨queue, hq'⟩ := List.head?_eq_some_iff.1 hq
  have hspoilt : spoilt = false := hg _ hq rfl hacc
  have hopen : s.pc ≠ .closed := by simp [hpc]
  obtain ⟨skipped, pending', harr, -, hutt⟩ := h.cons hq' rfl
  have hbuffer : s.session.audioBuffer = utterance (taken.map Prod.fst) :=
    h.buffer_eq hopen hspoilt
  rw [take_of_zipIdx harr, hutt, ← hbuffer]
  simp [Servicer.step, hpc, hq', receive, hacc]

/-- An utterance interrupts a turn that is streaming: a cancel, and then its own
    audio and end. -/
def interruption : List Label :=
  [.greet [], .arrive (some (.audioChunk [1])), .arrive (some (.speechEnded 900 0)), .take, .take,
    .respond { sttText := "yes" }, .deliver, .respond { ttsPayloads := [[0]] },
    .arrive (some (.cancelGeneration "t1")), .drain, .arrive (some (.audioChunk [2])), .drain,
    .arrive (some (.speechEnded 800 0)), .drain, .deliver, .exhaust]

/-- The interrupting utterance is answered. -/
theorem reachable_framed_interruption :
    ∃ s, (framing false).Reachable s ∧
      (s.1.step .take).map Prod.snd = some [.call (.onSpeechEnded [2] 800 0)] := by
  have hexec : ((framing false).execIf Framed (framing false).init interruption).map
      (fun s => decide (s.1.pc = .receiving ∧
        s.1.queue.head? = some (some (.speechEnded 800 0), 4) ∧
        s.1.session.acceptsSpeech = true ∧ s.2 = false ∧ utterance (s.1.arrived.take 4) = [2])) =
      some true := by
    decide
  obtain ⟨s, hs, hr⟩ := Option.map_eq_some_iff.1 hexec
  have hs : (framing false).ReachableIf Framed s := System.ReachableIf.execIf .init hs
  obtain ⟨hpc, hq, hacc, hspoilt, hutt⟩ := of_decide_eq_true hr
  exact ⟨s, hs.reachable, hutt ▸ reachable_framed hs hpc hq hacc fun _ _ _ _ => hspoilt⟩

/-- The audio of the next utterance arrives while a turn streams, and is thrown away. -/
theorem not_reachable_framed :
    ¬∀ s, (framing false).Reachable s → ∀ durationMs energyDb n, s.1.pc = .receiving →
      s.1.queue.head? = some (some (.speechEnded durationMs energyDb), n) →
      s.1.session.acceptsSpeech = true →
      (s.1.step .take).map Prod.snd =
        some [.call (.onSpeechEnded (utterance (s.1.arrived.take n)) durationMs energyDb)] := by
  intro h
  have hexec : ((framing false).exec (framing false).init
      [.greet [], .arrive (some (.speechEnded 900 0)), .take, .respond { sttText := "yes" },
        .arrive (some (.audioChunk [2])), .drain, .deliver, .exhaust,
        .arrive (some (.speechEnded 800 0))]).map
      (fun s => decide (s.1.pc = .receiving ∧
        s.1.queue.head? = some (some (.speechEnded 800 0), 2) ∧
        s.1.session.acceptsSpeech = true ∧
        (s.1.step .take).map Prod.snd = some [.call (.onSpeechEnded [] 800 0)] ∧
        utterance (s.1.arrived.take 2) = [2])) = some true := by
    decide
  obtain ⟨s, hs, hr⟩ := Option.map_eq_some_iff.1 hexec
  obtain ⟨hpc, hq, hacc, hst, hutt⟩ := of_decide_eq_true hr
  have hframed := h s (System.Reachable.exec .init hs) 800 0 2 hpc hq hacc
  rw [hst, hutt] at hframed
  cases hframed

end Servicer

end Yuviz.Conversation
