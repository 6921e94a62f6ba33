import Mathlib
import Yuviz.Vobiz.Bridge

/-!
# The caller can interrupt what is played

A `SPEECH_START` cancels a turn and clears the playback if a turn is active. The
speech of a turn is played while it is, in runs in which it arrives while it is,
and in which nothing that resolves the turn comes before the speech has been
played (`Attentive`): neither the watchdog, nor an error, nor a final marker.
-/

namespace Yuviz.Vobiz.Bridge

variable {s s' : Bridge} {l : Label} {events : List VadEvent}

/-- Speech is in the playback queue, or the pacer holds some. -/
def Audible (s : Bridge) : Prop :=
  (∃ item ∈ s.playQueue, item.isFrame = true) ∨ s.pacer.frame?.isSome = true

/-- The same, but for the frame that the pacer held at a barge-in. -/
def Sounds (s : Bridge) : Prop :=
  (∃ item ∈ s.playQueue, item.isFrame = true) ∨ s.pacer.frame?.isSome = true ∧ s.cut = false

/-- A `SPEECH_START` clears the playback, and the turn is cancelled, at once or
    after `clearAudio` has been sent. -/
def Interruptible (s : Bridge) : Prop :=
  ∀ payload events s', .speechStart ∈ events → s.step (.media payload events) = some s' →
    (s'.playQueue = [] ∧ s'.playBuf = []) ∧ ∃ sent, s'.grpcWriteQueue = s.grpcWriteQueue ++ sent ∧
      ((∃ held, .cancelGeneration held ∈ sent) ∨
        s.playingTts = true ∧ ∃ held rest, s'.media = .clearing held rest)

/-- Speech arrives while a turn is active, and the turn is not resolved while any
    of it is to be played. -/
def Attentive (s : Bridge) : Label → Prop
  | .receive (.ttsChunk turn ulaw isFinal) =>
    s.turnActive = true ∨ ∀ item ∈ (s.ttsItems turn ulaw isFinal).1, item.isFrame = false
  | .receive (.error _) => s.pacer.frame?.isSome = true → s.cut = true
  | .take => s.playQueue.head?.map Item.isFrame = some false →
      ∀ item ∈ s.playQueue.tail, item.isFrame = false
  | .watchdog => ¬ s.Sounds
  | _ => True

/-- No barge-in comes while the pacer holds a frame. -/
def Uncut (s : Bridge) : Label → Prop
  | .media _ events => .speechStart ∈ events → s.pacer.frame? = none
  | .clearAudio => .speechStart ∈ s.media.events → s.pacer.frame? = none
  | _ => True

instance : Decidable s.Sounds :=
  inferInstanceAs (Decidable ((∃ item ∈ s.playQueue, item.isFrame = true) ∨
    s.pacer.frame?.isSome = true ∧ s.cut = false))

instance : DecidablePred s.Attentive
  | .receive (.ttsChunk turn ulaw isFinal) => inferInstanceAs (Decidable (s.turnActive = true ∨
      ∀ item ∈ (s.ttsItems turn ulaw isFinal).1, item.isFrame = false))
  | .receive (.error _) => inferInstanceAs (Decidable (s.pacer.frame?.isSome = true → s.cut = true))
  | .take => inferInstanceAs (Decidable (s.playQueue.head?.map Item.isFrame = some false →
      ∀ item ∈ s.playQueue.tail, item.isFrame = false))
  | .watchdog => inferInstanceAs (Decidable (¬ s.Sounds))
  | .tick _ | .media _ _ | .clearAudio | .receive .cancelAck | .receive .endCall | .wake | .sent
  | .pump | .write | .wrote => inferInstanceAs (Decidable True)

instance : DecidablePred s.Uncut
  | .media _ events => inferInstanceAs (Decidable (.speechStart ∈ events → s.pacer.frame? = none))
  | .clearAudio =>
    inferInstanceAs (Decidable (.speechStart ∈ s.media.events → s.pacer.frame? = none))
  | .tick _ | .receive _ | .take | .wake | .sent | .pump | .write | .wrote | .watchdog =>
    inferInstanceAs (Decidable True)

/-! ### A barge-in -/

theorem playback_runVad (hqueue : s.playQueue = []) (hbuf : s.playBuf = []) :
    (s.runVad events).playQueue = [] ∧ (s.runVad events).playBuf = [] :=
  runVad_invariant (I := fun s => s.playQueue = [] ∧ s.playBuf = []) events ⟨hqueue, hbuf⟩
    (fun _ _ h => h) (fun _ h => h) (fun _ _ h => h) (fun _ _ => ⟨rfl, rfl⟩) (fun _ h => h)
    fun _ h => h

/-- What is in the queue to the service stays there. -/
theorem prefix_runVad (s : Bridge) (events : List VadEvent) :
    s.grpcWriteQueue <+: (s.runVad events).grpcWriteQueue :=
  runVad_invariant (I := fun s' => s.grpcWriteQueue <+: s'.grpcWriteQueue) events
    (List.prefix_refl _) (fun _ _ h => h) (fun _ h => h) (fun _ _ h => h) (fun _ h => h)
    (fun _ h => h.trans ((List.prefix_append _ _).trans (List.prefix_append _ _)))
    fun _ h => h.trans (List.prefix_append _ _)

theorem cancels_runVad (s : Bridge) (held : List AudioChunk) (events : List VadEvent) :
    ∃ sent, ((s.cancelGeneration held).runVad events).grpcWriteQueue = s.grpcWriteQueue ++ sent ∧
      .cancelGeneration held ∈ sent := by
  obtain ⟨sent, hsent⟩ := prefix_runVad (s.cancelGeneration held) events
  refine ⟨[.cancelGeneration held] ++ s.audioDelayBuf.map (fun held => .audioChunk held.2) ++ sent,
    ?_, ?_⟩
  · rw [← hsent, ← List.append_assoc, ← List.append_assoc]
    rfl
  · exact List.mem_append_left _ (List.mem_append_left _ (List.mem_singleton_self _))

theorem runVad_interrupts (hactive : s.turnActive = true) (hstart : .speechStart ∈ events) :
    ((s.runVad events).playQueue = [] ∧ (s.runVad events).playBuf = []) ∧
    ∃ sent, (s.runVad events).grpcWriteQueue = s.grpcWriteQueue ++ sent ∧
      ((∃ held, .cancelGeneration held ∈ sent) ∨
        s.playingTts = true ∧ ∃ held rest, (s.runVad events).media = .clearing held rest) := by
  induction events generalizing s with
  | nil => exact absurd hstart List.not_mem_nil
  | cons event events ih =>
    cases event with
    | none => exact ih hactive ((List.mem_cons.1 hstart).resolve_left (by simp))
    | speechStart =>
      rw [runVad, if_pos hactive]
      split_ifs with hplaying
      · exact ⟨⟨rfl, rfl⟩, [], (List.append_nil _).symm, .inr ⟨hplaying, _, _, rfl⟩⟩
      · refine ⟨playback_runVad rfl rfl, ?_⟩
        obtain ⟨sent, hsent, hcancel⟩ := cancels_runVad { s.bargeIn with speaking := true }
          s.heldChunks events
        exact ⟨sent, hsent, .inl ⟨_, hcancel⟩⟩
    | speechEnd =>
      have hstart := (List.mem_cons.1 hstart).resolve_left (by simp)
      rw [runVad]
      split_ifs
      · obtain ⟨hclear, sent, hsent, hcancel⟩ := ih (s := s.speechEnded) rfl hstart
        refine ⟨hclear, .speechEnded s.received s.heldChunks :: sent, ?_, ?_⟩
        · rw [hsent, List.append_cons]
          rfl
        · refine hcancel.imp_left ?_
          rintro ⟨held, hheld⟩
          exact ⟨held, List.mem_cons_of_mem _ hheld⟩
      · exact ih hactive hstart

theorem interruptible_of_turnActive (hactive : s.turnActive = true) : s.Interruptible := by
  intro payload events s' hstart hst
  cases moves_of_step hst
  exact runVad_interrupts (s := s.hold payload) hactive hstart

/-- The turn is cancelled when `clearAudio` has been sent. -/
theorem cancels_of_clearing {held : List AudioChunk} (hmedia : s.media = .clearing held events) :
    ∃ s' sent, s.step .clearAudio = some s' ∧ s'.grpcWriteQueue = s.grpcWriteQueue ++ sent ∧
      .cancelGeneration held ∈ sent := by
  obtain ⟨sent, hsent, hcancel⟩ := cancels_runVad { s with log := s.log ++ [Event.clearAudio] }
    held events
  refine ⟨_, sent, ?_, hsent, hcancel⟩
  rw [Bridge.step, onClearAudio]
  split
  · rename_i hreading
    cases hmedia.symm.trans hreading
  · rename_i held' events' hclearing
    obtain ⟨rfl, rfl⟩ := Media.clearing.inj (hmedia.symm.trans hclearing)
    rfl

/-! ### Steps -/

/-- What sounds is of a turn that is active. -/
def Attended (s : Bridge) : Prop := s.Sounds → s.turnActive = true

theorem not_sounds_bargeIn (s : Bridge) : ¬ s.bargeIn.Sounds := by
  rintro (⟨item, hitem, -⟩ | ⟨hsome, hcut⟩)
  · exact List.not_mem_nil hitem
  · exact absurd (hcut.symm.trans hsome) nofun

theorem Attended.runVad (h : s.Attended) (events : List VadEvent) : (s.runVad events).Attended :=
  runVad_invariant events h (fun _ _ h => h) (fun _ h => h) (fun _ _ h => h)
    (fun s _ hsounds => absurd hsounds (not_sounds_bargeIn s)) (fun _ h => h) fun _ _ _ => rfl

theorem Attended.step (h : s.Attended) (hl : s.Attentive l) (hst : s.step l = some s') :
    s'.Attended := by
  cases moves_of_step hst with
  | media payload events => exact Attended.runVad (s := s.hold payload) h events
  | @clearAudio held events hmedia =>
    exact Attended.runVad (s := cancelGeneration { s with log := s.log ++ [Event.clearAudio] } held)
      h events
  | ttsChunk ulaw isFinal hturn =>
    rintro (⟨item, hitem, hframe⟩ | hheld)
    · rcases List.mem_append.1 hitem with hitem | hitem
      · exact h (.inl ⟨item, hitem, hframe⟩)
      · refine hl.resolve_right fun hnone => ?_
        exact absurd ((hnone item hitem).symm.trans hframe) nofun
    · exact h (.inr hheld)
  | error fatal =>
    rintro (⟨item, hitem, -⟩ | ⟨hsome, hcut⟩)
    · exact absurd hitem List.not_mem_nil
    · exact absurd (hcut.symm.trans (hl hsome)) nofun
  | final hpacer hqueue =>
    rw [Attentive, hqueue] at hl
    rintro (⟨item, hitem, hframe⟩ | ⟨hsome, -⟩)
    · exact absurd ((hl rfl item hitem).symm.trans hframe) nofun
    · have hsome : s.pacer.frame?.isSome = true := hsome
      rw [hpacer] at hsome
      cases hsome
  | @frame samples rest hpacer hqueue =>
    -- A frame that is taken was to be played.
    have hactive : s.turnActive = true := h (.inl ⟨.frame samples, by simp [hqueue], rfl⟩)
    obtain ⟨startedAt, framesSent, pacer, -, heq⟩ := play_eq { s with playQueue := rest } samples
    exact fun _ => heq ▸ hactive
  | wake hpacer =>
    exact fun hsounds => h (hsounds.imp_right fun hheld => ⟨by rw [hpacer]; rfl, hheld.2⟩)
  | sent hpacer => exact fun hsounds => h (hsounds.imp_right fun hheld => absurd hheld.1 nofun)
  | resolve => exact fun hsounds => absurd hsounds hl
  | _ => exact h

/-! ### Barge-ins between frames -/

theorem cut_runVad (h : s.cut = false) (hstart : .speechStart ∈ events → s.pacer.frame? = none) :
    (s.runVad events).cut = false := by
  induction events generalizing s with
  | nil => exact h
  | cons event events ih =>
    have htail (hmem : .speechStart ∈ events) : s.pacer.frame? = none :=
      hstart (List.mem_cons_of_mem _ hmem)
    cases event with
    | none => exact ih h htail
    | speechStart =>
      have hcut : s.pacer.frame?.isSome = false := by rw [hstart (List.mem_cons_self ..)]; rfl
      rw [runVad]
      split_ifs
      · exact hcut
      · exact ih hcut htail
      · exact ih h htail
    | speechEnd =>
      rw [runVad]
      split_ifs
      · exact ih h htail
      · exact ih h htail

theorem cut_step (h : s.cut = false) (hl : s.Uncut l) (hst : s.step l = some s') :
    s'.cut = false := by
  cases moves_of_step hst with
  | media payload events => exact cut_runVad h hl
  | @clearAudio held events hmedia =>
    rw [Uncut, hmedia] at hl
    exact cut_runVad (s := cancelGeneration { s with log := s.log ++ [Event.clearAudio] } held) h hl
  | @frame samples rest hpacer hqueue =>
    obtain ⟨startedAt, framesSent, pacer, -, heq⟩ := play_eq { s with playQueue := rest } samples
    rw [heq]
  | _ => exact h

theorem attended_init (now : ℤ) : (system now).init.Attended := by
  rintro (⟨item, hitem, -⟩ | ⟨hsome, -⟩)
  · exact absurd hitem List.not_mem_nil
  · exact absurd hsome nofun

/-- Speech that is to be played can be interrupted, but for the frame that the
    pacer held at a barge-in, and that frame too if it held none. -/
theorem reachable_interruptible (now : ℤ) :
    (∀ s, (system now).ReachableIf Attentive s → s.Sounds →
      s.turnActive = true ∧ s.Interruptible) ∧
    (∀ s, (system now).ReachableIf (fun s l => s.Attentive l ∧ s.Uncut l) s → s.Audible →
      s.turnActive = true ∧ s.Interruptible) ∧
    ∀ (s : Bridge) held events, s.media = .clearing held events → ∃ s' sent, s.step .clearAudio = some s' ∧
      s'.grpcWriteQueue = s.grpcWriteQueue ++ sent ∧ .cancelGeneration held ∈ sent := by
  have hattended {s : Bridge} (hs : (system now).ReachableIf Attentive s) : s.Attended :=
    hs.invariant (I := Attended) (attended_init now)
      fun _ _ _ => Attended.step
  refine ⟨fun s hs hsounds => ?_, fun s hs haudible => ?_, fun s held events => cancels_of_clearing⟩
  · have hactive := hattended hs hsounds
    exact ⟨hactive, interruptible_of_turnActive hactive⟩
  · have hcut : s.cut = false := hs.invariant (I := fun s => s.cut = false) rfl
      fun _ _ _ h hg hst => cut_step h hg.2 hst
    have hactive := hattended (hs.mono fun _ _ => And.left) (haudible.imp_right (⟨·, hcut⟩))
    exact ⟨hactive, interruptible_of_turnActive hactive⟩

/-- An answer begins twelve seconds after the caller has spoken, less 100 ms. -/
def longAnswer : List Label :=
  utterance ++ [.tick 11900, .receive (.ttsChunk 1 (List.replicate 3200 0) false)] ++
    (List.replicate 6 [Label.take, .sent]).flatten ++ [.take, .tick 100, .watchdog]

/-- The watchdog resolves the turn, and the answer goes on. -/
theorem not_interruptible_longAnswer : ¬ ∀ s, (system 0).Reachable s → s.Audible →
    s.turnActive = true ∧ s.Interruptible := by
  intro hinterruptible
  have hrun : ((system 0).exec (system 0).init longAnswer).map
      (fun s => (s.pacer.frame?.isSome, s.turnActive)) = some (true, false) := by
    decide +kernel
  obtain ⟨s, hs, heq⟩ := Option.map_eq_some_iff.1 hrun
  obtain ⟨hframe, hactive⟩ := Prod.mk.inj heq
  have hactive' := (hinterruptible s (.exec .init hs) (.inr hframe)).1
  exact absurd (hactive.symm.trans hactive') nofun

/-- An answer of 40 ms, while its first frame is sent. -/
theorem reachable_interruptible_answer : ∃ s,
    (system 0).ReachableIf (fun s l => s.Attentive l ∧ s.Uncut l) s ∧ s.Audible ∧
      s.turnActive = true ∧ s.Interruptible := by
  have hrun : ((system 0).execIf (fun s l => s.Attentive l ∧ s.Uncut l) (system 0).init
      (utterance ++ [.tick 900, .receive (.ttsChunk 1 (List.replicate 320 0) true), .take])).map
      (fun s => s.pacer.frame?.isSome) = some true := by
    decide +kernel
  obtain ⟨s, hs, hframe⟩ := Option.map_eq_some_iff.1 hrun
  have hreach : (system 0).ReachableIf (fun s l => s.Attentive l ∧ s.Uncut l) s :=
    .execIf .init hs
  exact ⟨s, hreach, .inr hframe, (reachable_interruptible 0).2.1 s hreach (.inr hframe)⟩

end Yuviz.Vobiz.Bridge
