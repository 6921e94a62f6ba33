import Yuviz.Gateway.Media.AudioFrame
import Yuviz.Gateway.Utils.RingBuffer.Refines
import Yuviz.Vad.Detector

/-!
# The inbound side of a media session

The receiver pushes bytes to the ring, and a worker drains them, a frame at a
time: the frame is called back, the detector judges it, and what the detector
says is called back too. The ring is the bounded queue that `RingBuffer` is
(`RingBuffer.refines`), so that a call takes effect at once.

The detector is any `IVAD`, and what one can do in a call may be left open: a
network that fails now and then is a detector for each call. The energies,
which are floats, and the metrics and logs are left out. What is not in the
program are the *utterances* that have ended, with what the detector had
counted for them.
-/

namespace Yuviz

open Vad Gateway

namespace Media

structure MediaSessionConfig where
  sessionId : List UInt8
  sampleRate : BitVec 32
  channels : BitVec 8
  ringBufferMs : BitVec 32
  frameMs : BitVec 32

namespace MediaSessionConfig

variable (cfg : MediaSessionConfig)

def frameSamples : BitVec 32 :=
  cfg.sampleRate * cfg.channels.setWidth 32 * cfg.frameMs / 1000

def ringSamples : BitVec 32 :=
  cfg.sampleRate * cfg.channels.setWidth 32 * cfg.ringBufferMs / 1000

/-- The capacity of the ring, rounded up to a power of two. -/
def capacity : ℕ :=
  ((RingBuffer.nextPowerOfTwo 64 (cfg.ringSamples.setWidth 64)).getD 0).toNat

end MediaSessionConfig

inductive MediaCallback (D : Type*)
  | onAudioFrame (frame : AudioFrame)
  | onSpeechStarted
  | onSpeechEnded (durationMs : D)

structure MediaSession (V D : Type*) where
  ring : List (BitVec 16)
  vad : V
  inboundSeq : BitVec 64
  callbacks : List (MediaCallback D)
  utterances : List (Utterance D)

namespace MediaSession

variable {V D M : Type*} (cfg : MediaSessionConfig)

def init (v : V) : MediaSession V D := ⟨[], v, 0, [], []⟩

/-- A batch that does not fit is dropped whole. -/
def pushInbound (data : List UInt8) (s : MediaSession V D) : MediaSession V D × Bool :=
  if s.ring.length + (samples data).length ≤ cfg.capacity then
    ({ s with ring := s.ring ++ samples data }, true)
  else (s, false)

def audioFrame (now : BitVec 64) (frame : List (BitVec 16)) (s : MediaSession V D) : AudioFrame :=
  AudioFrame.setSessionId
    { sequenceNum := s.inboundSeq, timestampUs := now, sampleRate := cfg.sampleRate, channels := 1,
      direction := .inbound, codec := .pcmS16le, payload := bytes frame } cfg.sessionId

/-- What the detector says of the frame. -/
def judge (vad : IVAD (BitVec 16) V D) (frame : List (BitVec 16))
    (s : MediaSession V D) : MediaSession V D :=
  let v := (vad.process s.vad frame).1
  match (vad.process s.vad frame).2 with
  | .none => { s with vad := v }
  | .speechStart => { s with vad := v, callbacks := s.callbacks ++ [.onSpeechStarted] }
  | .speechEnd =>
    -- The duration is read after the detector has ended the utterance.
    let dur := vad.speechDurationMs v
    { s with
      vad := v
      callbacks := s.callbacks ++ [.onSpeechEnded dur]
      utterances := s.utterances ++ [⟨vad.counted s.vad, dur⟩] }

/-- It returns how many samples it has taken. -/
def drainAvailable (vad : IVAD (BitVec 16) V D) (now : BitVec 64) (s : MediaSession V D) :
    MediaSession V D × ℕ :=
  let got := min s.ring.length cfg.frameSamples.toNat
  if got = 0 then (s, 0)
  else
    let frame := s.ring.take got
    (judge vad frame
      { s with
        ring := s.ring.drop got
        inboundSeq := s.inboundSeq + 1
        callbacks := s.callbacks ++ [.onAudioFrame (s.audioFrame cfg now frame)] }, got)

inductive Label (M : Type*)
  | push (data : List UInt8)
  /-- A call at a time, of the detector that this call has. -/
  | drain (now : BitVec 64) (detector : M)

def step (vad : M → IVAD (BitVec 16) V D) (s : MediaSession V D) :
    Label M → Option (MediaSession V D)
  | .push data => some (s.pushInbound cfg data).1
  | .drain now detector => some (s.drainAvailable cfg (vad detector) now).1

/-- A session with a detector in the state `v`. -/
def system (vad : M → IVAD (BitVec 16) V D) (v : V) : System (MediaSession V D) (Label M) where
  init := init v
  step := step cfg vad

/-! ## The ring -/

variable {cfg} {s : MediaSession V D} {vad : IVAD (BitVec 16) V D} {now : BitVec 64}
  {data : List UInt8}

/-- A push and a drain are calls of the bounded queue. -/
theorem fifo_pushInbound : RingBuffer.Fifo cfg.capacity s.ring
    (.push (samples data) (s.pushInbound cfg data).2) (s.pushInbound cfg data).1.ring := by
  rw [pushInbound]
  split_ifs with hfit
  · exact .push hfit
  · exact .full (Nat.lt_of_not_le hfit)

@[simp] theorem judge_ring (vad : IVAD (BitVec 16) V D) (frame : List (BitVec 16))
    (s : MediaSession V D) :
    (s.judge vad frame).ring = s.ring := by
  rw [judge]
  split <;> rfl

@[simp] theorem judge_vad (vad : IVAD (BitVec 16) V D) (frame : List (BitVec 16))
    (s : MediaSession V D) :
    (s.judge vad frame).vad = (vad.process s.vad frame).1 := by
  rw [judge]
  split <;> rfl

theorem fifo_drainAvailable : RingBuffer.Fifo cfg.capacity s.ring
    (.pop cfg.frameSamples.toNat (s.ring.take (s.drainAvailable cfg vad now).2))
    (s.drainAvailable cfg vad now).1.ring := by
  have hpop : ∀ n ≤ cfg.frameSamples.toNat,
      (s.ring.take n = [] → cfg.frameSamples.toNat = 0 ∨ s.ring.drop n = []) →
      RingBuffer.Fifo cfg.capacity s.ring (.pop cfg.frameSamples.toNat (s.ring.take n))
        (s.ring.drop n) := by
    intro n hn hsome
    have hfifo : RingBuffer.Fifo cfg.capacity (s.ring.take n ++ s.ring.drop n)
        (.pop cfg.frameSamples.toNat (s.ring.take n)) (s.ring.drop n) :=
      .pop ((List.length_take_le n s.ring).trans hn) hsome
    rwa [List.take_append_drop] at hfifo
  rw [drainAvailable]
  split_ifs with hgot
  · refine hpop 0 (Nat.zero_le _) fun _ => ?_
    rcases Nat.min_eq_zero_iff.1 hgot with hring | hframe
    · exact .inr (by rw [List.length_eq_zero_iff.1 hring, List.drop_nil])
    · exact .inl hframe
  · rw [judge_ring]
    refine hpop _ (min_le_right _ _) fun htake => absurd ?_ hgot
    rcases List.take_eq_nil_iff.1 htake with hzero | hnil
    · exact hzero
    · rw [hnil, List.length_nil, Nat.zero_min]

/-! ## The ends of the utterances -/

/-- A detector that clears its counters delivers no duration. -/
theorem durationMs_eq_zero [Zero D] {vad : M → IVAD (BitVec 16) V D} {v : V}
    (hvad : ∀ m, (vad m).Clears) (hs : (system cfg vad v).Reachable s) {u : Utterance D}
    (hu : u ∈ s.utterances) : u.durationMs = 0 := by
  refine System.Reachable.invariant (I := fun s => ∀ u ∈ s.utterances, u.durationMs = 0) nofun
    (fun s l s' hI hst => ?_) hs u hu
  have hjudge : ∀ (m : M) (frame : List (BitVec 16)) (s : MediaSession V D),
      (∀ u ∈ s.utterances, u.durationMs = 0) →
      ∀ u ∈ (s.judge (vad m) frame).utterances, u.durationMs = 0 := by
    intro m frame s hI
    rw [judge]
    split
    · exact hI
    · exact hI
    · next hend =>
      intro u hu
      rcases List.mem_append.1 hu with hu | hu
      · exact hI u hu
      · rw [List.mem_singleton.1 hu]
        exact hvad m s.vad frame hend
  cases l with
  | push data =>
    obtain rfl := Option.some.inj hst
    rw [pushInbound]
    split_ifs
    · exact hI
    · exact hI
  | drain now m =>
    obtain rfl := Option.some.inj hst
    rw [drainAvailable]
    split_ifs
    · exact hI
    · exact hjudge m _ _ hI

end MediaSession

end Media

end Yuviz
