import Mathlib.Data.List.Basic

/-!
# The frames of audio

A frame owns its payload, which is 16-bit PCM, little endian. The identifiers
are arrays of 37 characters that end with a null, of which only the
characters before it are kept here.
-/

namespace Yuviz.Media

inductive AudioCodec
  | pcmS16le
  deriving DecidableEq

inductive AudioDirection
  | inbound
  | outbound
  deriving DecidableEq

structure AudioFrame where
  sessionId : List UInt8 := []
  traceId : List UInt8 := []
  sequenceNum : BitVec 64 := 0
  timestampUs : BitVec 64 := 0
  sampleRate : BitVec 32 := 16000
  channels : BitVec 8 := 1
  codec : AudioCodec := .pcmS16le
  direction : AudioDirection := .inbound
  /-- The last frame of speech of a response. -/
  isFinal : Bool := false
  payload : List UInt8 := []
  deriving DecidableEq

def AudioFrame.setSessionId (frame : AudioFrame) (sv : List UInt8) : AudioFrame :=
  { frame with sessionId := sv.take 36 }

/-- The samples of some bytes; of an odd number, the last byte is left out. -/
def samples : List UInt8 → List (BitVec 16)
  | lo :: hi :: data => (hi.toBitVec ++ lo.toBitVec) :: samples data
  | _ => []

/-- The bytes of some samples. -/
def bytes (pcm : List (BitVec 16)) : List UInt8 :=
  pcm.flatMap fun (s : BitVec 16) =>
    [UInt8.ofBitVec (s.setWidth 8), UInt8.ofBitVec ((s >>> 8).setWidth 8)]

theorem samples_bytes (pcm : List (BitVec 16)) : samples (bytes pcm) = pcm := by
  induction pcm with
  | nil => rfl
  | cons s pcm ih =>
    have hs : (s >>> 8).setWidth 8 ++ s.setWidth 8 = s := by
      ext i hi
      grind
    rw [bytes, List.flatMap_cons, List.cons_append, List.cons_append, List.nil_append, samples,
      ← bytes, ih]
    exact congrArg (· :: pcm) hs

@[simp] theorem length_bytes (pcm : List (BitVec 16)) : (bytes pcm).length = 2 * pcm.length := by
  induction pcm with
  | nil => rfl
  | cons s pcm ih =>
    rw [bytes, List.flatMap_cons, List.length_append, ← bytes, ih, List.length_cons]
    simp only [List.length_cons, List.length_nil]
    omega

end Yuviz.Media
