import Mathlib.Order.Nat
import Yuviz.Log
import Yuviz.Vobiz.Bridge

/-!
# The speech of a turn that was cancelled

A barge-in clears what is queued of the speech of the turns that have begun. What
the pacer holds at that moment is sent, and nothing else of these turns is in
runs in which none of their speech arrives any more (`Punctual`).
-/

namespace Yuviz.Vobiz

variable {k g : ℕ}

/-- Nothing of the item is of a turn below `k`. -/
def Item.From (k : ℕ) : Item → Prop
  | frame samples => ∀ x ∈ samples, k ≤ x.turn
  | final turn => k ≤ turn

/-- Some of the frame is of the turns up to `g`. -/
def IsOld (g : ℕ) (frame : List Sample) : Prop := ∃ x ∈ frame, x.turn ≤ g

instance (g : ℕ) (frame : List Sample) : Decidable (IsOld g frame) :=
  inferInstanceAs (Decidable (∃ x ∈ frame, x.turn ≤ g))

/-- The entry is a frame of the turns up to `g`. -/
def Event.plays (g : ℕ) : Event → Bool
  | playAudio frame => decide (IsOld g frame)
  | _ => false

theorem not_isOld {frame : List Sample} (h : ∀ x ∈ frame, k ≤ x.turn) (hlt : g < k) :
    ¬ IsOld g frame :=
  fun ⟨x, hx, hle⟩ => absurd (h x hx) (Nat.not_le.2 (hle.trans_lt hlt))

namespace Bridge

variable {s s' : Bridge} {l : Label} {turn : ℕ}

/-- After a barge-in no speech of the turns that had begun is sent, but for a
    frame that the pacer held, and no final marker of theirs resolves a turn. -/
def Silent (s : Bridge) : Prop :=
  ∀ before g holding after, s.log = before ++ .bargeIn g holding :: after →
    after.countP (·.plays g) ≤ (if holding then 1 else 0) ∧ ∀ turn ≤ g, .resolved turn ∉ after

/-- No speech of a turn that was cancelled arrives. -/
def Punctual (s : Bridge) : Label → Prop
  | .receive (.ttsChunk turn _ _) => s.cancelled ≤ turn
  | _ => True

instance : DecidablePred s.Punctual
  | .receive (.ttsChunk turn _ _) => inferInstanceAs (Decidable (s.cancelled ≤ turn))
  | .tick _ | .media _ _ | .clearAudio | .receive .cancelAck | .receive (.error _)
  | .receive .endCall | .take | .wake | .sent | .pump | .write | .wrote | .watchdog =>
    inferInstanceAs (Decidable True)

/-! ### What arrives -/

/-- Frames are of the turns of their samples, -/
theorem from_cutFrames {n : ℕ} {buf : List Sample} (h : ∀ x ∈ buf, k ≤ x.turn) :
    (∀ item ∈ (cutFrames n buf).1, item.From k) ∧ ∀ x ∈ (cutFrames n buf).2, k ≤ x.turn := by
  induction n generalizing buf with
  | zero => exact ⟨nofun, h⟩
  | succ n ih =>
    rw [cutFrames]
    split_ifs
    · obtain ⟨hitems, hrest⟩ := ih fun x hx => h x (List.mem_of_mem_drop hx)
      refine ⟨fun item hitem => ?_, hrest⟩
      rcases List.mem_cons.1 hitem with rfl | hitem
      · exact fun x hx => h x (List.mem_of_mem_take hx)
      · exact hitems item hitem
    · exact ⟨nofun, h⟩

/-- and so is what is played of an answer. -/
theorem from_ttsItems (ulaw : List UInt8) (isFinal : Bool) (hbuf : ∀ x ∈ s.playBuf, k ≤ x.turn)
    (hturn : k ≤ turn) : (∀ item ∈ (s.ttsItems turn ulaw isFinal).1, item.From k) ∧
      ∀ x ∈ (s.ttsItems turn ulaw isFinal).2, k ≤ x.turn := by
  have hall : ∀ x ∈ s.playBuf ++ ulaw.map (Sample.mk turn), k ≤ x.turn := by
    intro x hx
    rcases List.mem_append.1 hx with hx | hx
    · exact hbuf x hx
    · obtain ⟨byte, -, rfl⟩ := List.mem_map.1 hx
      exact hturn
  obtain ⟨hitems, hrest⟩ := from_cutFrames hall
  cases isFinal with
  | false => exact ⟨hitems, hrest⟩
  | true =>
    refine ⟨fun item hitem => ?_, nofun⟩
    rcases List.mem_append.1 hitem with hitem | hitem
    · rcases List.mem_append.1 hitem with hitem | hitem
      · exact hitems item hitem
      · split_ifs at hitem
        · exact absurd hitem List.not_mem_nil
        · exact List.mem_singleton.1 hitem ▸ hrest
    · exact List.mem_singleton.1 hitem ▸ hturn

/-! ### Steps -/

/-- Whether the pacer holds speech of the turns up to `g`. -/
def holds (s : Bridge) (g : ℕ) : ℕ := s.pacer.frame?.toList.countP (IsOld g ·)

structure Muted (s : Bridge) : Prop where
  queue : ∀ item ∈ s.playQueue, item.From s.cancelled
  buf : ∀ x ∈ s.playBuf, s.cancelled ≤ x.turn
  begun : s.cancelled ≤ s.turnGeneration + 1
  log : ∀ before g holding after, s.log = before ++ .bargeIn g holding :: after →
    g < s.cancelled ∧ after.countP (·.plays g) + s.holds g ≤ (if holding then 1 else 0) ∧
      ∀ turn ≤ g, .resolved turn ∉ after

/-- A bridge that is muted plays nothing of an old turn. -/
theorem Muted.silent (h : s.Muted) : s.Silent := by
  intro before g holding after hlog
  obtain ⟨-, hplays, hresolved⟩ := h.log before g holding after hlog
  exact ⟨(Nat.le_add_right _ _).trans hplays, hresolved⟩

/-- An entry that is not of speech that was cancelled. -/
theorem Muted.concat (h : s.Muted) {e : Event} (hlog : s'.log = s.log ++ [e])
    (hcancelled : s'.cancelled = s.cancelled)
    (hholds : ∀ g < s.cancelled, [e].countP (·.plays g) + s'.holds g ≤ s.holds g)
    (hresolved : ∀ turn, e = .resolved turn → s.cancelled ≤ turn)
    (hbargeIn : ∀ g holding, e ≠ .bargeIn g holding) :
    ∀ before g holding after, s'.log = before ++ .bargeIn g holding :: after →
      g < s'.cancelled ∧ after.countP (·.plays g) + s'.holds g ≤ (if holding then 1 else 0) ∧
        ∀ turn ≤ g, .resolved turn ∉ after := by
  intro before g holding after heq
  rw [hlog] at heq
  rcases concat_eq_append_cons.1 heq with ⟨-, he, -⟩ | ⟨after', rfl, hbefore⟩
  · exact absurd he (hbargeIn g holding)
  · obtain ⟨hlt, hplays, hnone⟩ := h.log before g holding after' hbefore
    refine ⟨hcancelled ▸ hlt, ?_, fun turn hturn hmem => ?_⟩
    · have := hholds g hlt
      rw [List.countP_append]
      omega
    · rcases List.mem_append.1 hmem with hmem | hmem
      · exact hnone turn hturn hmem
      · exact absurd (hresolved turn (List.mem_singleton.1 hmem).symm) (by omega)

/-- It stays so at a barge-in, -/
theorem Muted.bargeIn (h : s.Muted) : s.bargeIn.Muted where
  queue := nofun
  buf := nofun
  begun := le_refl _
  log := by
    intro before g holding after heq
    rcases concat_eq_append_cons.1 heq with ⟨-, he, rfl⟩ | ⟨after', rfl, hbefore⟩
    · obtain ⟨rfl, rfl⟩ := Event.bargeIn.inj he
      refine ⟨Nat.lt_succ_self _, ?_, fun _ _ => List.not_mem_nil⟩
      -- It holds one frame at most.
      show 0 + s.holds s.turnGeneration ≤ _
      rw [holds, Nat.zero_add]
      cases s.pacer.frame? with
      | none => exact Nat.zero_le _
      | some frame => exact List.countP_le_length
    · obtain ⟨hlt, hplays, hnone⟩ := h.log before g holding after' hbefore
      refine ⟨hlt.trans_le h.begun, ?_, fun turn hturn hmem => ?_⟩
      · rw [List.countP_append]
        exact hplays
      · rcases List.mem_append.1 hmem with hmem | hmem
        · exact hnone turn hturn hmem
        · cases List.mem_singleton.1 hmem

theorem Muted.runVad (h : s.Muted) (events : List VadEvent) : (s.runVad events).Muted :=
  runVad_invariant events h (fun _ _ h => { h with }) (fun _ h => { h with })
    (fun _ _ h => { h with }) (fun _ h => h.bargeIn) (fun _ h => { h with })
    fun _ h => { h with begun := h.begun.trans (Nat.le_succ _) }

/-- and at every step, if no answer comes late. -/
theorem Muted.step (h : s.Muted) (hl : s.Punctual l) (hst : s.step l = some s') : s'.Muted := by
  cases moves_of_step hst with
  | media payload events => exact Muted.runVad (s := s.hold payload) { h with } events
  | @clearAudio held events hmedia =>
    have h' : Muted (cancelGeneration { s with log := s.log ++ [Event.clearAudio] } held) :=
      { h with log := h.concat rfl rfl (fun _ _ => by simp [Event.plays]; rfl) nofun nofun }
    exact h'.runVad events
  | @ttsChunk turn ulaw isFinal hturn =>
    obtain ⟨hitems, hrest⟩ := from_ttsItems ulaw isFinal h.buf hl
    refine { h with queue := fun item hitem => ?_, buf := hrest }
    exact (List.mem_append.1 hitem).elim (h.queue item) (hitems item)
  | error fatal => exact { h with queue := nofun, buf := nofun }
  | @final turn rest hpacer hqueue =>
    have hturn := h.queue (.final turn) (by rw [hqueue]; exact List.mem_cons_self ..)
    refine { h with queue := fun item hitem => ?_, log := h.concat rfl rfl ?_ ?_ nofun }
    · exact h.queue item (hqueue ▸ List.mem_cons_of_mem _ hitem)
    · exact fun g _ => by simp [Event.plays]; rfl
    · exact fun turn' heq => Event.resolved.inj heq ▸ hturn
  | @frame samples rest hpacer hqueue =>
    have hfrom : ∀ x ∈ samples, s.cancelled ≤ x.turn :=
      h.queue (.frame samples) (by rw [hqueue]; exact List.mem_cons_self ..)
    obtain ⟨startedAt, framesSent, pacer, hframe, heq⟩ :=
      play_eq { s with playQueue := rest } samples
    rw [heq]
    refine { h with
      queue := fun item hitem => h.queue item (hqueue ▸ List.mem_cons_of_mem _ hitem), log := ?_ }
    -- The frame is not of the turns that were cancelled.
    intro before g holding after hlog
    obtain ⟨hlt, hplays, hnone⟩ := h.log before g holding after hlog
    refine ⟨hlt, le_trans (Nat.add_le_add_left (le_of_eq_of_le ?_ (Nat.zero_le _)) _) hplays, hnone⟩
    simp [holds, hframe, not_isOld hfrom hlt]
  | @wake frame target hpacer =>
    refine { h with log := fun before g holding after hlog => ?_ }
    have := h.log before g holding after hlog
    rwa [holds, hpacer] at this
  | @sent frame hpacer =>
    refine { h with log := h.concat rfl rfl (fun g _ => ?_) nofun nofun }
    simp [holds, hpacer, Pacer.frame?, Event.plays]
  | _ => exact { h with }

/-- The turns that were cancelled are not heard any more, if none of their speech arrives. -/
theorem reachable_silent (now : ℤ) : ∀ s, (system now).ReachableIf Punctual s → s.Silent :=
  fun _ hs => Muted.silent <| hs.invariant
    (⟨nofun, nofun, Nat.zero_le _, fun _ _ _ _ h => by simp [system] at h⟩)
    fun _ _ _ => Muted.step

/-- So much of the answer of the turn 1: its bytes are of no matter. -/
def answer (n : ℕ) (isFinal : Bool) : Label :=
  .receive (.ttsChunk 1 (List.replicate n 0) isFinal)

/-- The caller speaks into an answer. -/
def bargedIn : List Label :=
  utterance ++ [answer 160 false, .take, .sent, window .none, window .none, window .speechStart,
    .clearAudio]

/-- The end of the answer arrives after the barge-in. -/
def lateAnswer : List Label := bargedIn ++ [answer 160 true, .take, .sent, .take]

theorem not_silent_lateAnswer : ¬ ∀ s, (system 0).Reachable s → s.Silent := by
  intro hsilent
  have hrun : ((system 0).exec (system 0).init lateAnswer).map (fun s => s.log.drop 1) =
      some (.bargeIn 1 false ::
        [.clearAudio, .playAudio (List.replicate 160 ⟨1, 0⟩), .resolved 1]) := by
    decide +kernel
  obtain ⟨s, hs, hlog⟩ := Option.map_eq_some_iff.1 hrun
  have heq : s.log = s.log.take 1 ++ .bargeIn 1 false :: _ :=
    (List.take_append_drop 1 s.log).symm.trans (congrArg _ hlog)
  have hresolved := (hsilent s (.exec .init hs) _ _ _ _ heq).2 1 (le_refl 1)
  exact hresolved (by simp)

/-- The answer of the next turn arrives after the barge-in, and not the end of the first. -/
def nextAnswer : List Label :=
  bargedIn ++ List.replicate 31 (window .none) ++
    [window .speechEnd, .receive (.ttsChunk 2 (List.replicate 160 0) false), .take, .sent]

theorem reachable_silent_nextAnswer : ∃ s, (system 0).ReachableIf Punctual s ∧
    s.log.drop 1 = [.bargeIn 1 false, .clearAudio, .playAudio (List.replicate 160 ⟨2, 0⟩)] ∧
    s.Silent := by
  have hrun : ((system 0).execIf Punctual (system 0).init nextAnswer).map (fun s => s.log.drop 1) =
      some [.bargeIn 1 false, .clearAudio, .playAudio (List.replicate 160 ⟨2, 0⟩)] := by
    decide +kernel
  obtain ⟨s, hs, hlog⟩ := Option.map_eq_some_iff.1 hrun
  have hreach : (system 0).ReachableIf Punctual s := .execIf .init hs
  exact ⟨s, hreach, hlog, reachable_silent 0 s hreach⟩

end Bridge

end Yuviz.Vobiz
