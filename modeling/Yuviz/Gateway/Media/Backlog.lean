import Yuviz.Gateway.Media.MediaSession

/-!
# The backlog of the Silero VAD

A call of the detector adds the samples of a frame to what it has, and takes
one window at most, whether or not the network fails. With frames of at most a
window, less than a window is left after every call; with longer ones every
full frame leaves the excess behind, and the backlog has no bound
(`exists_backlog`). The frames are as long as the configuration and the ring
allow, so that this is what decides (`backlog_lt_iff`).
-/

namespace Yuviz

open Vad

namespace Gateway.SileroVad

variable {S F H P : Type*} [LE P] [LT P] [DecidableLE P] [DecidableLT P]

@[simp] theorem score_accum (cfg : SileroVadConfig P) (v : SileroVad F H) (prob : P) :
    (v.score cfg prob).1.accum = v.accum := by
  rw [score]
  split_ifs <;> rfl

/-- A window is taken in the call that completes it, be it judged or not. -/
theorem process_accum (cfg : SileroVadConfig P) (model : SileroModel S F H P) (v : SileroVad F H)
    (frame : List S) (hframe : frame ≠ []) :
    (v.process cfg model frame).1.accum =
      if (v.accum ++ frame.map model.norm).length < kWindow then v.accum ++ frame.map model.norm
      else (v.accum ++ frame.map model.norm).drop kWindow := by
  rw [process, if_neg hframe]
  dsimp only
  split_ifs with hshort
  · rfl
  · split
    · rfl
    · next hinfer =>
      rw [inferWindow, Option.map_eq_some_iff] at hinfer
      obtain ⟨a, -, hv⟩ := hinfer
      rw [score_accum, ← (Prod.mk.inj hv).2]

theorem length_process_accum (cfg : SileroVadConfig P) (model : SileroModel S F H P)
    (v : SileroVad F H) (frame : List S) (hframe : frame ≠ []) :
    (v.process cfg model frame).1.accum.length =
      if v.accum.length + frame.length < kWindow then v.accum.length + frame.length
      else v.accum.length + frame.length - kWindow := by
  rw [process_accum cfg model v frame hframe, List.length_append, List.length_map]
  split_ifs
  · rw [List.length_append, List.length_map]
  · rw [List.length_drop, List.length_append, List.length_map]

end Gateway.SileroVad

open Gateway

namespace Media.MediaSession

variable {F H P : Type*} [LE P] [LT P] [DecidableLE P] [DecidableLT P]
  {cfg : MediaSessionConfig} {vcfg : SileroVadConfig P} {model : SileroModel (BitVec 16) F H P}
  {v : SileroVad F H} {s : MediaSession (SileroVad F H) (BitVec 32)} {now : BitVec 64}

/-- The most samples that a frame has. -/
def maxFrame (cfg : MediaSessionConfig) : ℕ := min cfg.capacity cfg.frameSamples.toNat

/-- A session with the Silero VAD; every call has its own network. -/
def silero (cfg : MediaSessionConfig) (vcfg : SileroVadConfig P)
    (model : SileroModel (BitVec 16) F H P) :
    System (MediaSession (SileroVad F H) (BitVec 32))
      (Label (List F → H → H → Option (P × H × H))) :=
  system cfg (fun run => SileroVad.ivad vcfg { model with run := run }) (SileroVad.init model)

/-- What a drain makes of the samples that are buffered. -/
theorem length_drainAvailable (hgot : min s.ring.length cfg.frameSamples.toNat ≠ 0) :
    (s.drainAvailable cfg (SileroVad.ivad vcfg model) now).1.vad.accum.length =
      if s.vad.accum.length + min s.ring.length cfg.frameSamples.toNat < kWindow then
        s.vad.accum.length + min s.ring.length cfg.frameSamples.toNat
      else s.vad.accum.length + min s.ring.length cfg.frameSamples.toNat - kWindow := by
  have hlength : (s.ring.take (min s.ring.length cfg.frameSamples.toNat)).length =
      min s.ring.length cfg.frameSamples.toNat :=
    List.length_take_of_le (min_le_left _ _)
  have hframe : s.ring.take (min s.ring.length cfg.frameSamples.toNat) ≠ [] :=
    fun hnil => hgot (by rw [← hlength, hnil, List.length_nil])
  rw [drainAvailable, if_neg hgot, judge_vad]
  exact (SileroVad.length_process_accum vcfg model s.vad _ hframe).trans (by rw [hlength])

/-- The ring holds no more than its capacity, and less than a window is left. -/
structure Kept (cfg : MediaSessionConfig) (s : MediaSession (SileroVad F H) (BitVec 32)) :
    Prop where
  ring : s.ring.length ≤ cfg.capacity
  accum : s.vad.accum.length < kWindow

theorem Kept.step (hmax : maxFrame cfg ≤ kWindow) (h : Kept cfg s)
    {l : Label (List F → H → H → Option (P × H × H))}
    {s' : MediaSession (SileroVad F H) (BitVec 32)}
    (hst : (silero cfg vcfg model).step s l = some s') : Kept cfg s' := by
  cases l with
  | push data =>
    obtain rfl := Option.some.inj hst
    refine ⟨fifo_pushInbound.length_le h.ring, ?_⟩
    rw [pushInbound]
    split_ifs <;> exact h.accum
  | drain now run =>
    obtain rfl := Option.some.inj hst
    refine ⟨fifo_drainAvailable.length_le h.ring, ?_⟩
    by_cases hgot : min s.ring.length cfg.frameSamples.toNat = 0
    · rw [drainAvailable, if_pos hgot]
      exact h.accum
    · have hle : min s.ring.length cfg.frameSamples.toNat ≤ kWindow :=
        (min_le_min_right _ h.ring).trans hmax
      have haccum := h.accum
      rw [length_drainAvailable hgot]
      split_ifs <;> omega

/-- With longer frames every full one leaves the excess behind. -/
theorem exists_backlog (vcfg : SileroVadConfig P) (model : SileroModel (BitVec 16) F H P)
    (hmax : kWindow < maxFrame cfg) (n : ℕ) :
    ∃ s, (silero cfg vcfg model).Reachable s ∧ s.ring = [] ∧ n ≤ s.vad.accum.length := by
  induction n with
  | zero => exact ⟨_, .init, rfl, Nat.zero_le _⟩
  | succ n ih =>
    obtain ⟨s, hs, hring, hn⟩ := ih
    obtain ⟨hcapacity, hframe⟩ := le_min_iff.1 (le_refl (maxFrame cfg))
    -- As many samples as a frame may have.
    obtain ⟨data, hdata⟩ : ∃ data, (samples data).length = maxFrame cfg :=
      ⟨bytes (List.replicate (maxFrame cfg) 0), by rw [samples_bytes, List.length_replicate]⟩
    have hpush : (silero cfg vcfg model).step s (.push data) =
        some { s with ring := samples data } := by
      have hfit : s.ring.length + (samples data).length ≤ cfg.capacity := by
        rwa [hring, hdata, List.length_nil, Nat.zero_add]
      change some (s.pushInbound cfg data).1 = _
      rw [pushInbound, if_pos hfit, hring, List.nil_append]
    have hmin : min (samples data).length cfg.frameSamples.toNat = maxFrame cfg := by
      rw [hdata, min_eq_left hframe]
    refine ⟨_, .step (.step hs trivial hpush) trivial (l := .drain 0 model.run) rfl, ?_, ?_⟩
    · rw [drainAvailable, if_neg (by dsimp only; omega), judge_ring]
      dsimp only
      rw [hmin, ← hdata, List.drop_length]
    · rw [length_drainAvailable (by dsimp only; omega)]
      dsimp only
      rw [hmin]
      split_ifs <;> omega

/-- Less than a window is left after every call, in every run, if and only if no frame is
    longer than one. -/
theorem backlog_lt_iff (cfg : MediaSessionConfig) (vcfg : SileroVadConfig P)
    (model : SileroModel (BitVec 16) F H P) :
    (∀ s, (silero cfg vcfg model).Reachable s → s.vad.accum.length < kWindow) ↔
      min cfg.capacity cfg.frameSamples.toNat ≤ kWindow := by
  constructor
  · intro hall
    by_contra hmax
    obtain ⟨s, hs, -, hn⟩ := exists_backlog vcfg model
      (Nat.lt_of_not_le hmax) kWindow
    exact absurd (hall s hs) (Nat.not_lt.2 hn)
  · intro hmax s hs
    have hinit : Kept cfg (silero cfg vcfg model).init := ⟨Nat.zero_le _, Nat.two_pow_pos 9⟩
    exact (System.Reachable.invariant hinit (fun s l s' h hst => h.step hmax hst) hs).accum

/-- Frames of 40 ms at the rate the detector is for: they have 640 samples. -/
def longFrames : MediaSessionConfig where
  sessionId := []
  sampleRate := 16000
  channels := 1
  ringBufferMs := 500
  frameMs := 40

def failing : SileroModel (BitVec 16) ℤ Unit ℤ where
  norm := BitVec.toInt
  zero := 0
  zeroState := ()
  run _ _ _ := none

def thresholds : SileroVadConfig ℤ where
  speechThreshold := 50
  silenceThreshold := 35
  onsetMs := 96
  holdMs := 1000

theorem not_backlog_lt : ¬ ∀ s, (silero longFrames thresholds failing).Reachable s →
    s.vad.accum.length < kWindow := by
  intro hall
  have hmax : kWindow < maxFrame longFrames := by decide
  obtain ⟨s, hs, -, hn⟩ := exists_backlog thresholds failing hmax kWindow
  exact absurd (hall s hs) (Nat.not_lt.2 hn)

end Media.MediaSession

end Yuviz
