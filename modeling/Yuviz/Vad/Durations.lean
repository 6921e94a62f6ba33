import Mathlib
import Yuviz.Gateway.Media.MediaSession
import Yuviz.Vobiz.Bridge.SpeechEnded

/-!
# The durations of the utterances

Both callers of a detector ask it for the duration of the speech after it has
ended it, and all four detectors have cleared their counters by then. No end of
an utterance says how long the utterance was, whatever the detector had
counted (`not_reported`).
-/

namespace Yuviz.Vad

open Gateway Media

variable {E F H P : Type*} [LE E] [LT E] [DecidableLE E] [DecidableLT E]
  [LE P] [LT P] [DecidableLE P] [DecidableLT P]

/-- The model, with what the network does in a call: it may fail in any of them. -/
def ofCall (model : SileroModel (BitVec 16) F H P) (run : List F → H → H → Option (P × H × H)) :
    SileroModel (BitVec 16) F H P :=
  { model with run := run }

/-- The end of an utterance is never reported with its duration: by a media session
    with either detector, nor by the bridge with either port (it has the Silero one). -/
theorem not_reported (session : MediaSessionConfig) (energy : EnergyVadConfig E)
    (energyDb : List (BitVec 16) → E) (silero : SileroVadConfig P)
    (model : SileroModel (BitVec 16) F H P) :
    (∀ s, (MediaSession.system session (fun _ : Unit => EnergyVad.ivad energy energyDb)
        {}).Reachable s → ∀ u ∈ s.utterances, ¬ u.Reported energy.frameMs) ∧
    (∀ s, (MediaSession.system session (fun run => SileroVad.ivad silero (ofCall model run))
        (SileroVad.init model)).Reachable s →
      ∀ u ∈ s.utterances, ¬ u.Reported SileroVad.kWindowMs) ∧
    (∀ s, (Vobiz.Listener.system (fun run => VadSdk.SileroVad.ivad silero (ofCall model run))
        (VadSdk.SileroVad.init model)).Reachable s →
      ∀ u ∈ s.utterances, ¬ u.Reported VadSdk.SileroVad.windowMs) ∧
    (∀ s, (Vobiz.Listener.system (fun _ : Unit => VadSdk.EnergyVad.ivad energy energyDb)
        {}).Reachable s → ∀ u ∈ s.utterances, ¬ u.Reported energy.frameMs.toNat) := by
  refine ⟨fun s hs u hu => ?_, fun s hs u hu => ?_, fun s hs u hu => ?_, fun s hs u hu => ?_⟩
  · exact Utterance.unreported (by decide) (MediaSession.durationMs_eq_zero
      (fun _ => EnergyVad.clears energy energyDb) hs hu)
  · exact Utterance.unreported (by decide) (MediaSession.durationMs_eq_zero
      (fun run => SileroVad.clears silero (ofCall model run)) hs hu)
  · exact Utterance.unreported (by decide) (Vobiz.Listener.durationMs_eq_zero
      (fun run => VadSdk.SileroVad.clears silero (ofCall model run)) hs hu)
  · exact Utterance.unreported (by decide) (Vobiz.Listener.durationMs_eq_zero
      (fun _ => VadSdk.EnergyVad.clears energy energyDb) hs hu)

/-- A loud frame begins the speech, and a quiet one ends it. -/
def shortSpeech : EnergyVadConfig ℤ where
  speechThresholdDb := -40
  silenceThresholdDb := -50
  holdMs := 20
  frameMs := 20
  onsetMs := 20

def shortSession : MediaSessionConfig where
  sessionId := []
  sampleRate := 100
  channels := 1
  ringBufferMs := 200
  frameMs := 20

def shortDb (frame : List (BitVec 16)) : ℤ := if frame.all (· == 0) then -96 else 0

/-- Two frames were counted, and no time was delivered. -/
theorem not_all_reported : ¬ ∀ s : MediaSession EnergyVad (BitVec 32),
    (MediaSession.system shortSession (fun _ : Unit => EnergyVad.ivad shortSpeech shortDb)
      {}).Reachable s → ∀ u ∈ s.utterances, u.Reported shortSpeech.frameMs := by
  intro hall
  have hrun : ((MediaSession.system shortSession
      (fun _ : Unit => EnergyVad.ivad shortSpeech shortDb) {}).exec
      (MediaSession.init {}) [.push [1, 0, 1, 0, 1, 0, 1, 0, 0, 0, 0, 0], .drain 0 (),
        .drain 0 (), .drain 0 ()]).map (fun s => s.utterances) = some [⟨2, 0⟩] := by
    decide
  obtain ⟨s, hs, hutterances⟩ := Option.map_eq_some_iff.1 hrun
  have hmem : ⟨2, 0⟩ ∈ s.utterances := by
    rw [hutterances]
    exact List.mem_singleton_self _
  have hreported := (hall s (System.Reachable.exec .init hs) _ hmem).1
  exact absurd hreported (by decide)

end Yuviz.Vad
