import Mathlib.Data.List.Nodup
import Yuviz.Log
import Yuviz.Vobiz.Bridge

/-!
# What is written to the service

The audio of the caller is written in the order it arrived, and nothing of it is
lost (`Conserved`). A `cancel_generation` is written before what was held when
the caller began to speak, if the pump lets nothing go while `clearAudio` is sent
(`Patient`). But what is held is written after a `speech_ended`: it has before
it what was received only if nothing is held (`Follows`), and the chunk that
ends the speech is.
-/

namespace Yuviz.Vobiz.Bridge

variable {s s' : Bridge} {l : Label} {held : List AudioChunk}

/-- The messages that have been written, and those that will be. -/
def out (s : Bridge) : List Message := s.written ++ s.writer.toList ++ s.grpcWriteQueue

def chunks (msgs : List Message) : List AudioChunk := msgs.filterMap Message.chunk?

/-- The audio is written once, in the order it arrived. -/
structure Conserved (s : Bridge) : Prop where
  audio : chunks s.out ++ s.heldChunks = s.received
  numbered : s.received.map AudioChunk.sequenceNum = List.range' 1 s.sequenceNum

/-- A `cancel_generation` precedes what was held at the start of the speech. -/
def Precedes (before : List Message) : Message → Prop
  | .cancelGeneration held => ∀ chunk ∈ held, chunk ∉ chunks before
  | _ => True

/-- A message follows what was received. -/
def IsLate (before : List Message) (received : List AudioChunk) : Prop :=
  ∀ chunk ∈ received, chunk ∈ chunks before

/-- A `speech_ended` follows what was received if and only if nothing of it was held. -/
def Follows (before : List Message) : Message → Prop
  | .speechEnded received held => IsLate before received ↔ held = []
  | _ => True

/-- The order that the messages are to have. -/
def Demanded (before : List Message) : Message → Prop
  | .audioChunk _ => True
  | .cancelGeneration held => ∀ chunk ∈ held, chunk ∉ chunks before
  | .speechEnded received _ => IsLate before received

/-- The pump lets nothing go while `clearAudio` is sent. -/
def Patient (s : Bridge) : Label → Prop
  | .pump => s.media.held? = none
  | _ => True

instance : DecidablePred s.Patient
  | .pump => inferInstanceAs (Decidable (s.media.held? = none))
  | .tick _ | .media _ _ | .clearAudio | .receive _ | .take | .wake | .sent | .write | .wrote
  | .watchdog => inferInstanceAs (Decidable True)

/-! ### Messages -/

@[simp] theorem chunks_append (msgs msgs' : List Message) :
    chunks (msgs ++ msgs') = chunks msgs ++ chunks msgs' :=
  List.filterMap_append

@[simp] theorem chunks_singleton_chunk (chunk : AudioChunk) : chunks [.audioChunk chunk] = [chunk] :=
  rfl

@[simp] theorem chunks_singleton_cancel : chunks [.cancelGeneration held] = [] := rfl

@[simp] theorem chunks_singleton_ended (received : List AudioChunk) :
    chunks [.speechEnded received held] = [] :=
  rfl

@[simp] theorem chunks_map_audioChunk (cs : List AudioChunk) :
    chunks (cs.map .audioChunk) = cs := by
  induction cs with
  | nil => rfl
  | cons chunk cs ih => exact congrArg (chunk :: ·) ih

/-- What is demanded of the audio is always so. -/
theorem Throughout.audioChunks {P : List Message → Message → Prop} {log : List Message}
    (h : Throughout P log) (hP : ∀ before chunk, P before (.audioChunk chunk))
    (cs : List AudioChunk) : Throughout P (log ++ cs.map .audioChunk) := by
  refine h.append (throughout_of_forall fun msg hmsg before => ?_)
  obtain ⟨chunk, -, rfl⟩ := List.mem_map.1 hmsg
  exact hP _ chunk

/-- A chunk is held or sent, and not both. -/
theorem Conserved.notMem (h : s.Conserved) {chunk : AudioChunk} (hchunk : chunk ∈ s.heldChunks) :
    chunk ∉ chunks s.out := by
  have hnodup : (s.received.map AudioChunk.sequenceNum).Nodup :=
    h.numbered ▸ List.nodup_range'
  rw [← h.audio] at hnodup
  have hdisjoint := (List.nodup_append.1 (List.Nodup.of_map _ hnodup)).2.2
  exact fun hout => hdisjoint chunk hout chunk hchunk rfl

theorem Conserved.isLate_iff (h : s.Conserved) :
    IsLate s.out s.received ↔ s.heldChunks = [] := by
  rw [IsLate, ← h.audio]
  refine ⟨fun hlate => List.eq_nil_iff_forall_not_mem.2 fun chunk hchunk => ?_, fun hheld => ?_⟩
  · exact h.notMem hchunk (hlate chunk (List.mem_append_right _ hchunk))
  · rw [hheld, List.append_nil]
    exact fun _ => id

theorem Conserved.of_eq (h : s.Conserved) (hout : chunks s'.out ++ s'.heldChunks =
    chunks s.out ++ s.heldChunks) (hreceived : s'.received = s.received)
    (hnum : s'.sequenceNum = s.sequenceNum) : s'.Conserved :=
  ⟨hout.trans (h.audio.trans hreceived.symm), by rw [hreceived, hnum]; exact h.numbered⟩

/-! ### What the VAD does -/

/-- A cancellation is sent before what is held. -/
theorem out_cancelGeneration (s : Bridge) (held : List AudioChunk) :
    (s.cancelGeneration held).out =
      s.out ++ [.cancelGeneration held] ++ s.heldChunks.map .audioChunk := by
  simp [cancelGeneration, flushPendingAudioNow, out, heldChunks, List.append_assoc]

theorem heldChunks_cancelGeneration (s : Bridge) (held : List AudioChunk) :
    (s.cancelGeneration held).heldChunks = [] :=
  rfl

theorem out_speechEnded (s : Bridge) :
    s.speechEnded.out = s.out ++ [.speechEnded s.received s.heldChunks] := by
  simp [speechEnded, startTurn, out, heldChunks, List.append_assoc]

/-- So no chunk is lost or sent twice by it, -/
theorem Conserved.cancelGeneration (h : s.Conserved) (held : List AudioChunk) :
    (s.cancelGeneration held).Conserved := by
  refine h.of_eq ?_ rfl rfl
  rw [out_cancelGeneration, heldChunks_cancelGeneration, chunks_append, chunks_append,
    chunks_singleton_cancel, chunks_map_audioChunk, List.append_nil, List.append_nil]

/-- nor by the end of the speech, -/
theorem Conserved.speechEnded (h : s.Conserved) : s.speechEnded.Conserved := by
  refine h.of_eq ?_ rfl rfl
  rw [out_speechEnded, chunks_append, chunks_singleton_ended, List.append_nil]
  rfl

/-- nor by a chunk that is new. -/
theorem Conserved.hold (h : s.Conserved) (payload : List UInt8) : (s.hold payload).Conserved where
  audio := by
    have haudio := h.audio
    simp only [Bridge.hold, Bridge.heldChunks, List.map_append, ← List.append_assoc] at haudio ⊢
    exact congrArg (· ++ [_]) haudio
  numbered := by
    simp only [Bridge.hold, List.map_append, h.numbered, List.range'_concat, Nat.one_mul,
      List.map_singleton, Nat.add_comm]

/-! ### Steps -/

/-- A step that is not of the audio of the caller. -/
structure Same (s s' : Bridge) : Prop where
  out : s'.out = s.out
  held : s'.audioDelayBuf = s.audioDelayBuf
  received : s'.received = s.received
  num : s'.sequenceNum = s.sequenceNum
  media : s'.media = s.media

/-- The pump queues the first of the chunks that are held. -/
structure Pumps (s s' : Bridge) (chunk : AudioChunk) : Prop where
  out : s'.out = s.out ++ [.audioChunk chunk]
  held : s.heldChunks = chunk :: s'.heldChunks
  received : s'.received = s.received
  num : s'.sequenceNum = s.sequenceNum
  media : s'.media = s.media

/-- What a step may send. -/
theorem step_cases (hst : s.step l = some s') :
    (∃ payload events, l = .media payload events ∧ s' = (s.hold payload).runVad events) ∨
    (∃ held events, s.media = .clearing held events ∧ s' = runVad
      (cancelGeneration { s with log := s.log ++ [Event.clearAudio] } held) events) ∨
    (l = .pump ∧ ∃ chunk, Pumps s s' chunk) ∨ Same s s' := by
  cases moves_of_step hst with
  | media payload events => exact .inl ⟨payload, events, rfl, rfl⟩
  | clearAudio hmedia => exact .inr (.inl ⟨_, _, hmedia, rfl⟩)
  | @pump since chunk rest hbuf =>
    refine .inr (.inr (.inl ⟨rfl, chunk, (List.append_assoc _ _ _).symm, ?_, rfl, rfl, rfl⟩))
    rw [Bridge.heldChunks, hbuf]
    rfl
  | @frame samples rest hpacer hqueue =>
    obtain ⟨startedAt, framesSent, pacer, -, heq⟩ := play_eq { s with playQueue := rest } samples
    rw [heq]
    exact .inr (.inr (.inr ⟨rfl, rfl, rfl, rfl, rfl⟩))
  | write hwriter hqueue =>
    refine .inr (.inr (.inr ⟨?_, rfl, rfl, rfl, rfl⟩))
    simp [out, hwriter, hqueue]
  | wrote hwriter =>
    refine .inr (.inr (.inr ⟨?_, rfl, rfl, rfl, rfl⟩))
    simp [out, hwriter]
  | _ => exact .inr (.inr (.inr ⟨rfl, rfl, rfl, rfl, rfl⟩))

theorem Same.heldChunks (h : Same s s') : s'.heldChunks = s.heldChunks := by
  rw [Bridge.heldChunks, h.held]
  rfl

theorem Conserved.same (h : s.Conserved) (heq : Same s s') : s'.Conserved :=
  h.of_eq (by rw [heq.out, heq.heldChunks]) heq.received heq.num

/-- A chunk that is pumped is not held any more. -/
theorem Conserved.pumps (h : s.Conserved) {chunk : AudioChunk} (hpumps : Pumps s s' chunk) :
    s'.Conserved := by
  refine h.of_eq ?_ hpumps.received hpumps.num
  rw [hpumps.out, hpumps.held, chunks_append, chunks_singleton_chunk, List.append_assoc]
  rfl

/-! ### Runs -/

/-- What holds of the messages in every run. -/
structure Outbound (s : Bridge) : Prop where
  conserved : s.Conserved
  follows : Throughout Follows s.out

theorem Outbound.cancelGeneration (h : s.Outbound) (held : List AudioChunk) :
    (s.cancelGeneration held).Outbound where
  conserved := h.conserved.cancelGeneration held
  follows := by
    rw [out_cancelGeneration]
    exact Throughout.audioChunks (throughout_concat.2 ⟨h.follows, by trivial⟩) (fun _ _ => trivial) _

theorem Outbound.speechEnded (h : s.Outbound) : s.speechEnded.Outbound where
  conserved := h.conserved.speechEnded
  follows := by
    rw [out_speechEnded]
    exact throughout_concat.2 ⟨h.follows, h.conserved.isLate_iff⟩

theorem Outbound.congr (h : s.Outbound) (hout : s'.out = s.out)
    (hheld : s'.heldChunks = s.heldChunks) (hreceived : s'.received = s.received)
    (hnum : s'.sequenceNum = s.sequenceNum) : s'.Outbound :=
  ⟨h.conserved.of_eq (by rw [hout, hheld]) hreceived hnum, hout ▸ h.follows⟩

theorem Outbound.runVad (h : s.Outbound) (events : List VadEvent) : (s.runVad events).Outbound :=
  runVad_invariant events h (fun _ _ h => h.congr rfl rfl rfl rfl)
    (fun _ h => h.congr rfl rfl rfl rfl) (fun _ _ h => h.congr rfl rfl rfl rfl)
    (fun _ h => h.congr rfl rfl rfl rfl) (fun _ h => h.cancelGeneration _) fun _ h => h.speechEnded

/-- Every step keeps that. -/
theorem Outbound.step (h : s.Outbound) (hst : s.step l = some s') : s'.Outbound := by
  rcases step_cases hst with ⟨payload, events, -, rfl⟩ | ⟨held, events, -, rfl⟩ |
    ⟨-, chunk, hpumps⟩ | heq
  · exact Outbound.runVad ⟨h.conserved.hold payload, h.follows⟩ events
  · have h' : Outbound { s with log := s.log ++ [Event.clearAudio] } := h.congr rfl rfl rfl rfl
    exact (h'.cancelGeneration held).runVad events
  · refine ⟨h.conserved.pumps hpumps, ?_⟩
    rw [hpumps.out]
    exact throughout_concat.2 ⟨h.follows, by trivial⟩
  · exact h.congr heq.out heq.heldChunks heq.received heq.num

/-- What is held while `clearAudio` is sent is what was held at the start of the speech. -/
def Clearing (s : Bridge) : Prop := ∀ held, s.media.held? = some held → held = s.heldChunks

theorem clearing_runVad (s : Bridge) (events : List VadEvent) : (s.runVad events).Clearing := by
  induction events generalizing s with
  | nil => exact nofun
  | cons event events ih =>
    cases event with
    | none => exact ih s
    | speechStart =>
      rw [runVad]
      split_ifs
      · exact fun held hheld => (Option.some.inj hheld).symm
      · exact ih _
      · exact ih _
    | speechEnd =>
      rw [runVad]
      split_ifs
      · exact ih _
      · exact ih s

structure Prompt (s : Bridge) : Prop where
  outbound : s.Outbound
  precedes : Throughout Precedes s.out

theorem Prompt.cancelGeneration (h : s.Prompt) : (s.cancelGeneration s.heldChunks).Prompt where
  outbound := h.outbound.cancelGeneration _
  precedes := by
    rw [out_cancelGeneration]
    refine Throughout.audioChunks (throughout_concat.2 ⟨h.precedes, ?_⟩) (fun _ _ => trivial) _
    exact fun chunk => h.outbound.conserved.notMem

theorem Prompt.speechEnded (h : s.Prompt) : s.speechEnded.Prompt where
  outbound := h.outbound.speechEnded
  precedes := by
    rw [out_speechEnded]
    exact throughout_concat.2 ⟨h.precedes, by trivial⟩

theorem Prompt.congr (h : s.Prompt) (hout : s'.out = s.out) (houtbound : s'.Outbound) : s'.Prompt :=
  ⟨houtbound, hout ▸ h.precedes⟩

theorem Prompt.runVad (h : s.Prompt) (events : List VadEvent) : (s.runVad events).Prompt :=
  runVad_invariant events h (fun _ _ h => h.congr rfl (h.outbound.congr rfl rfl rfl rfl))
    (fun _ h => h.congr rfl (h.outbound.congr rfl rfl rfl rfl))
    (fun _ _ h => h.congr rfl (h.outbound.congr rfl rfl rfl rfl))
    (fun _ h => h.congr rfl (h.outbound.congr rfl rfl rfl rfl))
    (fun _ h => h.cancelGeneration) fun _ h => h.speechEnded

/-- A `cancel_generation` precedes what was held, if the bridge is patient. -/
theorem Prompt.step (h : s.Prompt) (hclearing : s.Clearing) (hl : s.Patient l)
    (hst : s.step l = some s') : s'.Prompt ∧ s'.Clearing := by
  have houtbound := h.outbound.step hst
  rcases step_cases hst with ⟨payload, events, -, rfl⟩ | ⟨held, events, hmedia, rfl⟩ |
    ⟨rfl, chunk, hpumps⟩ | heq
  · have h' : (s.hold payload).Prompt :=
      ⟨⟨h.outbound.conserved.hold payload, h.outbound.follows⟩, h.precedes⟩
    exact ⟨h'.runVad events, clearing_runVad _ _⟩
  · obtain rfl : held = s.heldChunks := hclearing held (by rw [hmedia]; rfl)
    have h' : Prompt { s with log := s.log ++ [Event.clearAudio] } :=
      h.congr rfl (h.outbound.congr rfl rfl rfl rfl)
    exact ⟨h'.cancelGeneration.runVad events, clearing_runVad _ _⟩
  · refine ⟨⟨houtbound, ?_⟩, fun held heq => ?_⟩
    · rw [hpumps.out]
      exact throughout_concat.2 ⟨h.precedes, by trivial⟩
    · -- `clearAudio` is not being sent.
      rw [hpumps.media] at heq
      cases heq.symm.trans hl
  · refine ⟨h.congr heq.out houtbound, fun held hheld => ?_⟩
    rw [heq.heldChunks]
    exact hclearing held (heq.media ▸ hheld)

theorem Outbound.init (now : ℤ) : (system now).init.Outbound :=
  ⟨⟨rfl, rfl⟩, throughout_nil⟩

/-- The audio is written once and in order, a `speech_ended` is late enough only
    if nothing is held, and a `cancel_generation` is early enough if the pump lets
    nothing go while `clearAudio` is sent. -/
theorem reachable_outbound (now : ℤ) :
    (∀ s, (system now).Reachable s → s.Conserved ∧ Throughout Follows s.out) ∧
    ∀ s, (system now).ReachableIf Patient s → Throughout Precedes s.out := by
  refine ⟨fun s hs => ?_, fun s hs => ?_⟩
  · have h := hs.invariant (Outbound.init now) fun _ _ _ => Outbound.step
    exact ⟨h.conserved, h.follows⟩
  · have h := hs.invariant (I := fun s => s.Prompt ∧ s.Clearing)
      ⟨⟨Outbound.init now, throughout_nil⟩, nofun⟩
      fun _ _ _ ⟨h, hclearing⟩ hg hst => h.step hclearing hg hst
    exact h.1.precedes

/-- The caller speaks into the answer. -/
def interruption : List Label :=
  utterance ++ [.tick 150, .pump, .receive (.ttsChunk 1 (List.replicate 160 0) false), .take, .sent,
    window .none, window .none, window .speechStart, .clearAudio]

theorem reachable_outbound_interruption : ∃ s, (system 0).ReachableIf Patient s ∧
    s.grpcWriteQueue.drop 36 = .cancelGeneration ((List.range' 36 3).map windowChunk) ::
      ((List.range' 36 3).map windowChunk).map .audioChunk ∧
    (s.Conserved ∧ Throughout Follows s.out) ∧ Throughout Precedes s.out := by
  have hrun : ((system 0).execIf Patient (system 0).init interruption).map
      (fun s => s.grpcWriteQueue.drop 36) =
      some (.cancelGeneration ((List.range' 36 3).map windowChunk) ::
        ((List.range' 36 3).map windowChunk).map .audioChunk) := by
    decide +kernel
  obtain ⟨s, hs, hqueue⟩ := Option.map_eq_some_iff.1 hrun
  have hreach : (system 0).ReachableIf Patient s := .execIf .init hs
  exact ⟨s, hreach, hqueue, (reachable_outbound 0).1 s hreach.reachable,
    (reachable_outbound 0).2 s hreach⟩

/-- The last of what was received is not before the end of the speech. -/
theorem not_demanded_utterance : ¬ ∀ s, (system 0).Reachable s →
    s.Conserved ∧ Throughout Demanded s.out := by
  intro hdemanded
  have hrun : ((system 0).exec (system 0).init utterance).map
      (fun s => ((s.written, s.writer), s.grpcWriteQueue)) =
      some (([], none), ((List.range' 1 34).map windowChunk).map .audioChunk ++
        [.speechEnded ((List.range' 1 35).map windowChunk) [windowChunk 35]]) := by
    decide +kernel
  obtain ⟨s, hs, heq⟩ := Option.map_eq_some_iff.1 hrun
  obtain ⟨hwrite, hqueue⟩ := Prod.mk.inj heq
  obtain ⟨hwritten, hwriter⟩ := Prod.mk.inj hwrite
  have hlast : windowChunk 35 ∈ chunks (((List.range' 1 34).map windowChunk).map .audioChunk) := by
    have hlate := (hdemanded s (.exec .init hs)).2
    rw [out, hwritten, hwriter, hqueue] at hlate
    refine (throughout_concat.1 hlate).2 _ ?_
    exact List.mem_map_of_mem (List.mem_range'_1.2 ⟨by decide, by decide⟩)
  rw [chunks_map_audioChunk] at hlast
  obtain ⟨n, hn, heq⟩ := List.mem_map.1 hlast
  obtain rfl : n = 35 := congrArg AudioChunk.sequenceNum heq
  exact absurd (List.mem_range'_1.1 hn).2 (by decide)

end Yuviz.Vobiz.Bridge
