import Mathlib
import Yuviz.Vad.SileroVad

/-!
# The detectors and the utterances they end

`IVAD` is what the callers know of a detector: what it says of a frame, and how
long the speech has lasted. The four detectors are one each. When an utterance
ends they have left the speech, and cleared what they had counted, before they
return (`IVAD.Clears`), so that a caller that asks afterwards is told 0.
-/

namespace Yuviz

open Vad

namespace Vad

/-- A detector. Its durations are numbers of some width. -/
structure IVAD (S V D : Type*) where
  process : V → List S → V × VadEvent
  speechDurationMs : V → D
  /-- What the detector has counted for the utterance, if a frame ends it in this state. -/
  counted : V → D

/-- An utterance that has ended. -/
structure Utterance (D : Type*) where
  counted : D
  /-- What was delivered with its end. -/
  durationMs : D
  deriving DecidableEq

/-- What the end of an utterance should say, where a frame or a window has `unitMs`. -/
def Utterance.Reported {D : Type*} [Mul D] [Zero D] [LT D] (unitMs : D) (u : Utterance D) : Prop :=
  u.durationMs = u.counted * unitMs ∧ 0 < u.durationMs

/-- The detector reports no speech after the frame that has ended it. -/
def IVAD.Clears {S V D : Type*} [Zero D] (vad : IVAD S V D) : Prop :=
  ∀ v frame, (vad.process v frame).2 = .speechEnd →
    vad.speechDurationMs (vad.process v frame).1 = 0

/-- An utterance without a duration is not reported. -/
theorem Utterance.unreported {D : Type*} [Mul D] [Zero D] [LT D] (hirrefl : ¬ (0 : D) < 0)
    {unitMs : D} {u : Utterance D} (h : u.durationMs = 0) : ¬ u.Reported unitMs := by
  intro hreported
  have hpos := hreported.2
  rw [h] at hpos
  exact hirrefl hpos

end Vad

variable {S E F H P : Type*}

/-! ### The detectors of the gateway -/

namespace Gateway

section

variable [LE E] [LT E] [DecidableLE E] [DecidableLT E]

def EnergyVad.ivad (cfg : EnergyVadConfig E) (energyDb : List S → E) :
    IVAD S EnergyVad (BitVec 32) where
  process := EnergyVad.process cfg energyDb
  speechDurationMs := EnergyVad.speechDurationMs cfg
  -- The silence that ends the utterance is not counted.
  counted v := v.speechFrames

theorem EnergyVad.clears (cfg : EnergyVadConfig E) (energyDb : List S → E) :
    (EnergyVad.ivad cfg energyDb).Clears := by
  intro v frame h
  simp only [ivad, process] at h ⊢
  split_ifs at h ⊢
  rfl

end

section

variable [LE P] [LT P] [DecidableLE P] [DecidableLT P]

def SileroVad.ivad (cfg : SileroVadConfig P) (model : SileroModel S F H P) :
    IVAD S (SileroVad F H) (BitVec 32) where
  process := SileroVad.process cfg model
  speechDurationMs := SileroVad.speechDurationMs
  -- The window that ends the utterance is counted, too.
  counted v := v.speechWindows + 1

theorem SileroVad.score_clears {cfg : SileroVadConfig P} {v : SileroVad F H} {prob : P}
    (h : (v.score cfg prob).2 = .speechEnd) : (v.score cfg prob).1.speechDurationMs = 0 := by
  simp only [score] at h ⊢
  split_ifs at h ⊢
  rfl

theorem SileroVad.clears (cfg : SileroVadConfig P) (model : SileroModel S F H P) :
    (SileroVad.ivad cfg model).Clears := by
  intro v frame h
  simp only [ivad, process] at h ⊢
  split_ifs at h ⊢
  split at h
  · cases h
  · exact score_clears h

end

end Gateway

/-! ### The ports -/

namespace VadSdk

section

variable [LE E] [LT E] [DecidableLE E] [DecidableLT E]

def EnergyVad.ivad (cfg : EnergyVadConfig E) (energyDb : List S → E) : IVAD S EnergyVad ℕ where
  process := EnergyVad.process cfg energyDb
  speechDurationMs := EnergyVad.speechDurationMs cfg
  counted v := v.speechFrames

theorem EnergyVad.clears (cfg : EnergyVadConfig E) (energyDb : List S → E) :
    (EnergyVad.ivad cfg energyDb).Clears := by
  intro v frame h
  simp only [ivad, process] at h ⊢
  split_ifs at h ⊢
  rfl

end

section

variable [LE P] [LT P] [DecidableLE P] [DecidableLT P]

def SileroVad.ivad (cfg : SileroVadConfig P) (model : SileroModel S F H P) :
    IVAD S (SileroVad F H) ℕ where
  process := SileroVad.process cfg model
  speechDurationMs := SileroVad.speechDurationMs
  -- No silence is counted, unlike in the gateway.
  counted v := v.speechWindows

theorem SileroVad.score_clears {cfg : SileroVadConfig P} {v : SileroVad F H} {prob : P}
    (h : (v.score cfg prob).2 = .speechEnd) : (v.score cfg prob).1.speechDurationMs = 0 := by
  simp only [score] at h ⊢
  split_ifs at h ⊢
  rfl

theorem SileroVad.clears (cfg : SileroVadConfig P) (model : SileroModel S F H P) :
    (SileroVad.ivad cfg model).Clears := by
  intro v frame h
  simp only [ivad, process] at h ⊢
  split_ifs at h ⊢
  split at h
  · cases h
  · exact score_clears h

end

end VadSdk

end Yuviz
