import Mathlib.Tactic.SplitIfs
import Yuviz.Gateway.Media.AudioFrame

/-!
# The splitting of the speech

What a call session does with a chunk of speech: it is pushed to the playback
in frames of 20 ms. The loop may not return; whether it does, for some fuel, and
that the frames are the chunk, is decided by the rate: below 50 samples a second
there is no sample in 20 ms, and the loop does not advance (`conserves_iff`).

The state that the first chunk of a turn has the call FSM go to is in `CallSession`.
-/

namespace Yuviz.Gateway.TtsChunk

open Media

def kFrameMs : ℕ := 20

/-- The rate of the frame; 0 is taken for the rate that is the default. -/
def rate (frame : AudioFrame) : ℕ :=
  if frame.sampleRate > 0 then frame.sampleRate.toNat else 16000

/-- In `size_t`, where no rate overflows. -/
def frameBytes (frame : AudioFrame) : ℕ := rate frame * kFrameMs / 1000 * 2

/-- The part of the frame from `off` to `fin`. The timestamp is that of no frame. -/
def subFrame (frame : AudioFrame) (off fin : ℕ) : AudioFrame where
  sessionId := frame.sessionId
  traceId := frame.traceId
  sequenceNum := frame.sequenceNum
  sampleRate := frame.sampleRate
  channels := frame.channels
  codec := frame.codec
  direction := frame.direction
  isFinal := frame.isFinal && fin == frame.payload.length
  payload := (frame.payload.take fin).drop off

/-- The frames that the loop pushes from `off` on, if it ends. -/
def split (frame : AudioFrame) : ℕ → ℕ → Option (List AudioFrame)
  | 0, _ => none
  | fuel + 1, off =>
    if off < frame.payload.length then
      (split frame fuel (off + frameBytes frame)).map
        (subFrame frame off (min (off + frameBytes frame) frame.payload.length) :: ·)
    else some []

/-- What is pushed outbound, if the loop ends. -/
def onTtsChunk (fuel : ℕ) (frame : AudioFrame) : Option (List AudioFrame) :=
  if frame.payload.length ≤ frameBytes frame then some [frame] else split frame fuel 0

/-- The fields that a part has from the frame. -/
structure SameHeader (frame f : AudioFrame) : Prop where
  sessionId : f.sessionId = frame.sessionId
  traceId : f.traceId = frame.traceId
  sequenceNum : f.sequenceNum = frame.sequenceNum
  sampleRate : f.sampleRate = frame.sampleRate
  channels : f.channels = frame.channels
  codec : f.codec = frame.codec
  direction : f.direction = frame.direction

/-- The audio of the frame is pushed, from the byte `off` on. -/
structure Conserves (frame : AudioFrame) (off : ℕ) (pushed : List AudioFrame) : Prop where
  payload : pushed.flatMap AudioFrame.payload = frame.payload.drop off
  /-- At most 20 ms of samples of two bytes. -/
  short : ∀ f ∈ pushed, f.payload.length * 1000 ≤ rate frame * kFrameMs * 2
  header : ∀ f ∈ pushed, SameHeader frame f
  /-- The last one is final if the frame is, and no other is. -/
  isFinal : pushed.map AudioFrame.isFinal =
    List.replicate (pushed.length - 1) false ++ [frame.isFinal]

variable {frame : AudioFrame} {off fuel : ℕ}

theorem frameBytes_le : frameBytes frame * 1000 ≤ rate frame * kFrameMs * 2 := by
  rw [frameBytes, Nat.mul_right_comm]
  exact Nat.mul_le_mul_right 2 (Nat.div_mul_le_self _ _)

theorem frameBytes_pos_iff :
    0 < frameBytes frame ↔ frame.sampleRate = 0 ∨ 50 ≤ frame.sampleRate.toNat := by
  have hzero : frame.sampleRate > 0 ↔ frame.sampleRate ≠ 0 := by
    bv_omega
  rw [frameBytes, rate, kFrameMs]
  split_ifs with hrate
  · have hne := hzero.1 hrate
    simp only [hne, false_or]
    omega
  · simp only [not_not.1 (hzero.not.1 hrate), true_or, iff_true]
    omega

theorem subFrame_header (fin : ℕ) : SameHeader frame (subFrame frame off fin) :=
  ⟨rfl, rfl, rfl, rfl, rfl, rfl, rfl⟩

theorem length_subFrame_payload :
    (subFrame frame off (min (off + frameBytes frame) frame.payload.length)).payload.length ≤
      frameBytes frame := by
  rw [subFrame, List.length_drop, List.length_take]
  omega

/-- The last part. -/
theorem conserves_last
    (hlast : frame.payload.length ≤ off + frameBytes frame) :
    Conserves frame off
      [subFrame frame off (min (off + frameBytes frame) frame.payload.length)] where
  payload := by
    rw [List.flatMap_singleton, subFrame, Nat.min_eq_right hlast, List.take_length]
  short := by
    intro f hf
    rw [List.mem_singleton.1 hf]
    exact Nat.le_trans (Nat.mul_le_mul_right _ length_subFrame_payload) frameBytes_le
  header := by
    intro f hf
    rw [List.mem_singleton.1 hf]
    exact subFrame_header _
  isFinal := by
    rw [List.map_singleton, subFrame, Nat.min_eq_right hlast, beq_self_eq_true, Bool.and_true]
    rfl

/-- A part before others. -/
theorem Conserves.cons {pushed : List AudioFrame}
    (hlt : off + frameBytes frame < frame.payload.length)
    (h : Conserves frame (off + frameBytes frame) pushed) :
    Conserves frame off
      (subFrame frame off (min (off + frameBytes frame) frame.payload.length) :: pushed) where
  payload := by
    have hdrop : (frame.payload.take (off + frameBytes frame)).drop off ++
        frame.payload.drop (off + frameBytes frame) = frame.payload.drop off := by
      rw [← List.drop_append_of_le_length, List.take_append_drop]
      rw [List.length_take]
      omega
    rw [List.flatMap_cons, h.payload, subFrame, Nat.min_eq_left (Nat.le_of_lt hlt), hdrop]
  short := by
    intro f hf
    rcases List.mem_cons.1 hf with rfl | hf
    · exact Nat.le_trans (Nat.mul_le_mul_right _ length_subFrame_payload) frameBytes_le
    · exact h.short f hf
  header := by
    intro f hf
    rcases List.mem_cons.1 hf with rfl | hf
    · exact subFrame_header _
    · exact h.header f hf
  isFinal := by
    have hne : pushed ≠ [] := by
      rintro rfl
      have hnil := h.isFinal
      simp at hnil
    have hpos : 0 < pushed.length := List.length_pos_of_ne_nil hne
    have hfinal : (subFrame frame off
        (min (off + frameBytes frame) frame.payload.length)).isFinal = false := by
      rw [subFrame, Nat.min_eq_left (Nat.le_of_lt hlt),
        beq_eq_false_iff_ne.2 (Nat.ne_of_lt hlt), Bool.and_false]
    rw [List.map_cons, h.isFinal, hfinal, List.length_cons, ← List.cons_append,
      ← List.replicate_succ]
    congr 2
    omega

/-- The loop ends if it advances. -/
theorem exists_split (hpos : 0 < frameBytes frame) (hfuel : frame.payload.length - off < fuel)
    (hoff : off < frame.payload.length) :
    ∃ pushed, split frame fuel off = some pushed ∧ Conserves frame off pushed := by
  induction fuel generalizing off with
  | zero => exact absurd hfuel (Nat.not_lt_zero _)
  | succ fuel ih =>
    rw [split, if_pos hoff]
    rcases Nat.lt_or_ge (off + frameBytes frame) frame.payload.length with hlt | hge
    · obtain ⟨pushed, hsplit, hconserves⟩ := ih (by omega) hlt
      exact ⟨_, by rw [hsplit]; rfl, hconserves.cons hlt⟩
    · obtain ⟨fuel, rfl⟩ : ∃ n, fuel = n + 1 := ⟨fuel - 1, by omega⟩
      exact ⟨_, by rw [split, if_neg (Nat.not_lt.2 hge)]; rfl, conserves_last hge⟩

/-- Otherwise it does not. -/
theorem split_eq_none (hzero : frameBytes frame = 0) (hoff : off < frame.payload.length)
    (fuel : ℕ) : split frame fuel off = none := by
  induction fuel with
  | zero => rfl
  | succ fuel ih => rw [split, if_pos hoff, hzero, Nat.add_zero, ih, Option.map_none]

theorem conserves_self (hle : frame.payload.length ≤ frameBytes frame) :
    Conserves frame 0 [frame] where
  payload := List.flatMap_singleton _ _
  short := by
    intro f hf
    rw [List.mem_singleton.1 hf]
    exact Nat.le_trans (Nat.mul_le_mul_right _ hle) frameBytes_le
  header := by
    intro f hf
    rw [List.mem_singleton.1 hf]
    exact ⟨rfl, rfl, rfl, rfl, rfl, rfl, rfl⟩
  isFinal := rfl

/-- A chunk is split, and its audio pushed, if and only if there is a sample in 20 ms, or no
    audio. -/
theorem conserves_iff (frame : AudioFrame) :
    (∃ fuel pushed, onTtsChunk fuel frame = some pushed ∧ Conserves frame 0 pushed) ↔
      frame.sampleRate = 0 ∨ 50 ≤ frame.sampleRate.toNat ∨ frame.payload = [] := by
  rw [← or_assoc, ← frameBytes_pos_iff]
  constructor
  · rintro ⟨fuel, pushed, hpushed, -⟩
    by_contra hcon
    obtain ⟨hzero, hne⟩ := not_or.1 hcon
    have hzero := Nat.eq_zero_of_not_pos hzero
    have hoff : 0 < frame.payload.length := List.length_pos_of_ne_nil hne
    rw [onTtsChunk, if_neg (by omega), split_eq_none hzero hoff] at hpushed
    cases hpushed
  · intro h
    by_cases hle : frame.payload.length ≤ frameBytes frame
    · exact ⟨0, [frame], if_pos hle, conserves_self hle⟩
    · have hpos : 0 < frameBytes frame := by
        rcases h with hpos | hnil
        · exact hpos
        · rw [hnil] at hle
          exact absurd (Nat.zero_le _) hle
      have hoff : 0 < frame.payload.length := by omega
      obtain ⟨pushed, hsplit, hconserves⟩ := exists_split hpos (Nat.lt_succ_self _) hoff
      exact ⟨_, pushed, (if_neg hle).trans hsplit, hconserves⟩

/-- A rate that the wire may carry, and one sample. -/
def slowFrame : AudioFrame where
  sampleRate := 40
  direction := .outbound
  payload := [1, 0]

theorem not_conserves_slowFrame :
    ¬ ∃ fuel pushed, onTtsChunk fuel slowFrame = some pushed ∧ Conserves slowFrame 0 pushed := by
  rintro ⟨fuel, pushed, hpushed, -⟩
  have hnone : split slowFrame fuel 0 = none := split_eq_none (by decide) (by decide) fuel
  rw [onTtsChunk, if_neg (by decide), hnone] at hpushed
  cases hpushed

end Yuviz.Gateway.TtsChunk
