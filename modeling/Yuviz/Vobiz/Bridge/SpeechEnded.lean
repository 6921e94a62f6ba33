import Yuviz.Gateway.Media.AudioFrame
import Yuviz.System
import Yuviz.Vad.Detector

/-!
# The utterances of a bridge

What `_run_vad` does with the audio of the caller, where the detector is run: the
bytes are buffered to windows, the detector judges a window at a time, and a
`speech_ended` is sent for the end of an utterance that has been seen to begin.
The rest that the bridge does with the events is in `Vobiz.Bridge`.
-/

namespace Yuviz.Vobiz

open Vad Yuviz.Media

/-- `WINDOW_BYTES` -/
def vadFrameBytes : ℕ := 1024

structure Listener (V : Type*) where
  vadBuf : List UInt8
  vad : V
  speaking : Bool
  /-- The `speech_ended` that were put to the queue. -/
  utterances : List (Utterance ℕ)

namespace Listener

variable {V M : Type*}

/-- A window. -/
def hear (vad : IVAD (BitVec 16) V ℕ) (frame : List UInt8) (s : Listener V) : Listener V :=
  let v := (vad.process s.vad (samples frame)).1
  match (vad.process s.vad (samples frame)).2 with
  | .speechStart => { s with vad := v, speaking := true }
  | .speechEnd =>
    if s.speaking then
      { s with
        vad := v
        speaking := false
        utterances := s.utterances ++ [⟨vad.counted s.vad, vad.speechDurationMs v⟩] }
    else { s with vad := v }
  | .none => { s with vad := v }

/-- The loop, over the windows that are in the buffer; each has its detector. -/
def loop (vad : M → IVAD (BitVec 16) V ℕ) : List M → Listener V → Listener V
  | [], s => s
  | m :: ms, s =>
    if vadFrameBytes ≤ s.vadBuf.length then
      loop vad ms (hear (vad m) (s.vadBuf.take vadFrameBytes)
        { s with vadBuf := s.vadBuf.drop vadFrameBytes })
    else s

def runVad (vad : M → IVAD (BitVec 16) V ℕ) (pcm16 : List UInt8) (ms : List M) (s : Listener V) :
    Listener V :=
  loop vad ms { s with vadBuf := s.vadBuf ++ pcm16 }

/-- The audio of a media event, and the detectors of the windows it completes. -/
structure Label (M : Type*) where
  pcm16 : List UInt8
  detectors : List M

def step (vad : M → IVAD (BitVec 16) V ℕ) (s : Listener V) (l : Label M) : Option (Listener V) :=
  if l.detectors.length = (s.vadBuf.length + l.pcm16.length) / vadFrameBytes then
    some (s.runVad vad l.pcm16 l.detectors)
  else none

def system (vad : M → IVAD (BitVec 16) V ℕ) (v : V) : System (Listener V) (Label M) where
  init := ⟨[], v, false, []⟩
  step := step vad

variable {s : Listener V} {vad : M → IVAD (BitVec 16) V ℕ}

/-- The loop ends with less than a window in the buffer. -/
theorem loop_vadBuf {ms : List M} (h : ms.length = s.vadBuf.length / vadFrameBytes) :
    (s.loop vad ms).vadBuf = s.vadBuf.drop (vadFrameBytes * ms.length) := by
  have hear_vadBuf : ∀ (m : M) (frame : List UInt8) (s : Listener V),
      (hear (vad m) frame s).vadBuf = s.vadBuf := by
    intro m frame s
    simp only [hear]
    split
    · rfl
    · split_ifs <;> rfl
    · rfl
  induction ms generalizing s with
  | nil => rfl
  | cons m ms ih =>
    rw [List.length_cons] at h
    have hle : vadFrameBytes ≤ s.vadBuf.length := by
      by_contra hlt
      rw [Nat.div_eq_of_lt (Nat.lt_of_not_le hlt)] at h
      omega
    have hlength : (s.vadBuf.length - vadFrameBytes) / vadFrameBytes = ms.length := by
      have hdiv := Nat.sub_mul_div s.vadBuf.length vadFrameBytes 1
      rw [Nat.mul_one] at hdiv
      omega
    rw [loop, if_pos hle, ih (by rw [hear_vadBuf, List.length_drop, hlength]), hear_vadBuf,
      List.drop_drop, List.length_cons, Nat.mul_add, Nat.mul_one, Nat.add_comm]

theorem length_vadBuf_lt {v : V} (hs : (system vad v).Reachable s) :
    s.vadBuf.length < vadFrameBytes := by
  refine System.Reachable.invariant (I := fun s => s.vadBuf.length < vadFrameBytes)
    (Nat.two_pow_pos 10) (fun s l s' _ hst => ?_) hs
  simp only [system, step] at hst
  split_ifs at hst with hlength
  obtain rfl := Option.some.inj hst
  rw [← List.length_append] at hlength
  rw [runVad, loop_vadBuf hlength, hlength, List.length_drop]
  exact (Nat.mod_def _ _).symm.trans_lt (Nat.mod_lt _ (Nat.two_pow_pos 10))

/-- A detector that clears its counters delivers no duration. -/
theorem durationMs_eq_zero {v : V} (hvad : ∀ m, (vad m).Clears)
    (hs : (system vad v).Reachable s) {u : Utterance ℕ} (hu : u ∈ s.utterances) :
    u.durationMs = 0 := by
  have hear_silent : ∀ (m : M) (frame : List UInt8) (s : Listener V),
      (∀ u ∈ s.utterances, u.durationMs = 0) →
      ∀ u ∈ (hear (vad m) frame s).utterances, u.durationMs = 0 := by
    intro m frame s hI
    simp only [hear]
    split
    · exact hI
    · next hend =>
      split_ifs
      · intro u hu
        rcases List.mem_append.1 hu with hu | hu
        · exact hI u hu
        · rw [List.mem_singleton.1 hu]
          exact hvad m s.vad _ hend
      · exact hI
    · exact hI
  have loop_silent : ∀ (ms : List M) (s : Listener V), (∀ u ∈ s.utterances, u.durationMs = 0) →
      ∀ u ∈ (s.loop vad ms).utterances, u.durationMs = 0 := by
    intro ms
    induction ms with
    | nil => exact fun _ hI => hI
    | cons m ms ih =>
      intro s hI
      rw [loop]
      split_ifs
      · exact ih _ (hear_silent m _ _ hI)
      · exact hI
  refine System.Reachable.invariant (I := fun s => ∀ u ∈ s.utterances, u.durationMs = 0) nofun
    (fun s l s' hI hst => ?_) hs u hu
  simp only [system, step] at hst
  split_ifs at hst
  obtain rfl := Option.some.inj hst
  exact loop_silent _ _ hI

end Listener

end Yuviz.Vobiz
