import Mathlib.Algebra.Order.Floor.Div
import Yuviz.Debounce

/-!
# The energy VAD

The detector of speech of the gateway, and its port to Python. A frame is loud
from the speech threshold on, and quiet below the silence threshold; what its
energy is, and how energies are compared, is left open.

The port is a debouncer of the loud and the quiet frames (`VadSdk.EnergyVad.step_eq`),
and the gateway keeps the counters of the port (`Gateway.EnergyVad.Counts.process`),
so that the events of both are where the runs of frames are completed, and they are
of the same opinion about the length of the speech (`debounced`).
-/

namespace Yuviz

namespace Vad

inductive VadEvent
  | none
  | speechStart
  | speechEnd
  deriving DecidableEq

def VadEvent.edge? : VadEvent → Option Edge
  | none => Option.none
  | speechStart => some .rise
  | speechEnd => some .fall

structure EnergyVadConfig (E : Type*) where
  speechThresholdDb : E
  silenceThresholdDb : E
  holdMs : BitVec 32
  frameMs : BitVec 32
  onsetMs : BitVec 32

/-- What comes out of a detector with each frame, and the duration of the speech after it. -/
def outputs {V F D : Type*} (process : V → F → V × VadEvent) (duration : V → D) :
    V → List F → List (F × VadEvent × D)
  | _, [] => []
  | v, f :: fs =>
    (f, (process v f).2, duration (process v f).1) :: outputs process duration (process v f).1 fs

/-- The frames, and where the events are. -/
def edges {F D : Type*} (out : List (F × VadEvent × D)) : List (F × Option Edge) :=
  out.map fun o => (o.1, o.2.1.edge?)

/-- Rounding up in Python, where `//` rounds down. -/
theorem toNat_neg_neg_ediv {a b : ℕ} (hb : 0 < b) : (-(-(a : ℤ) / b)).toNat = a ⌈/⌉ b := by
  refine eq_of_forall_ge_iff fun n => ?_
  calc (-(-(a : ℤ) / b)).toNat ≤ n
    _ ↔ -(n : ℤ) ≤ -(a : ℤ) / b := by omega
    _ ↔ -(n : ℤ) * b ≤ -(a : ℤ) := Int.le_ediv_iff_mul_le (Int.natCast_pos.2 hb)
    _ ↔ (a : ℤ) ≤ b * n := by rw [neg_mul, neg_le_neg_iff, mul_comm]
    _ ↔ a ≤ b * n := by norm_cast
    _ ↔ a ⌈/⌉ b ≤ n := (ceilDiv_le_iff_le_mul hb).symm

/-- And in C++, where the sum may wrap. -/
theorem toNat_add_pred_udiv {a b : BitVec 32} (hb : 0 < b.toNat)
    (h : a.toNat + b.toNat ≤ 2 ^ 32) : ((a + b - 1) / b).toNat = a.toNat ⌈/⌉ b.toNat := by
  have hone : (1 : BitVec 32).toNat = 1 := rfl
  have hnum : (a + b - 1).toNat = a.toNat + b.toNat - 1 := by
    rw [BitVec.toNat_sub, BitVec.toNat_add]
    omega
  rw [BitVec.toNat_udiv, hnum, Nat.ceilDiv_eq_add_pred_div]

theorem toNat_succ {b : BitVec 32} {n : ℕ} (hb : b.toNat < n) (hn : n < 2 ^ 32) :
    (b + 1).toNat = b.toNat + 1 := by
  rw [BitVec.toNat_add]
  exact Nat.mod_eq_of_lt (Nat.lt_of_le_of_lt hb hn)

namespace EnergyVadConfig

variable {S E : Type*} (cfg : EnergyVadConfig E)

/-- The frames of an onset, and of a hold. -/
def onset : ℕ := max 1 (cfg.onsetMs.toNat ⌈/⌉ cfg.frameMs.toNat)

def hold : ℕ := max 1 (cfg.holdMs.toNat / cfg.frameMs.toNat)

/-- The sums of milliseconds are within 32 bits. -/
structure Fits : Prop where
  frameMs_pos : 0 < cfg.frameMs.toNat
  sum_le : cfg.onsetMs.toNat + cfg.frameMs.toNat ≤ 2 ^ 32

variable {cfg}

theorem onset_pos : 0 < cfg.onset := Nat.lt_of_lt_of_le Nat.one_pos (le_max_left _ _)

theorem hold_pos : 0 < cfg.hold := Nat.lt_of_lt_of_le Nat.one_pos (le_max_left _ _)

theorem hold_lt : cfg.hold < 2 ^ 32 := by
  have hle : cfg.holdMs.toNat / cfg.frameMs.toNat ≤ cfg.holdMs.toNat := Nat.div_le_self _ _
  have hlt : cfg.holdMs.toNat < 2 ^ 32 := cfg.holdMs.isLt
  rw [hold]
  omega

theorem onset_lt (h : cfg.Fits) : cfg.onset < 2 ^ 32 := by
  have hle : (cfg.onsetMs.toNat + cfg.frameMs.toNat - 1) / cfg.frameMs.toNat ≤
    cfg.onsetMs.toNat + cfg.frameMs.toNat - 1 := Nat.div_le_self _ _
  have := h.sum_le
  have := h.frameMs_pos
  rw [onset, Nat.ceilDiv_eq_add_pred_div]
  omega

section

variable [LE E] [LT E] [DecidableLE E] [DecidableLT E] (cfg) (energyDb : List S → E)

def Loud (frame : List S) : Prop := cfg.speechThresholdDb ≤ energyDb frame

def Quiet (frame : List S) : Prop := energyDb frame < cfg.silenceThresholdDb

instance : DecidablePred (cfg.Loud energyDb) :=
  fun frame => inferInstanceAs (Decidable (cfg.speechThresholdDb ≤ energyDb frame))

instance : DecidablePred (cfg.Quiet energyDb) :=
  fun frame => inferInstanceAs (Decidable (energyDb frame < cfg.silenceThresholdDb))

/-- The debouncer of the frames. -/
def step (s : Debouncer) (frame : List S) : Debouncer × Option Edge :=
  s.step (cfg.Loud energyDb) (cfg.Quiet energyDb) cfg.onset cfg.hold frame

end

end EnergyVadConfig

end Vad

open Vad

/-! ### The gateway -/

namespace Gateway

structure EnergyVad where
  inSpeech : Bool := false
  silenceFrames : BitVec 32 := 0
  speechFrames : BitVec 32 := 0
  onsetFrames : BitVec 32 := 0

namespace EnergyVad

variable {S E : Type*} (cfg : EnergyVadConfig E)

def holdFrames : BitVec 32 := if cfg.frameMs > 0 then cfg.holdMs / cfg.frameMs else 12

def onsetNeeded : BitVec 32 :=
  if cfg.frameMs > 0 ∧ cfg.onsetMs > 0 then (cfg.onsetMs + cfg.frameMs - 1) / cfg.frameMs else 1

def speechDurationMs (v : EnergyVad) : BitVec 32 :=
  if v.inSpeech then v.speechFrames * cfg.frameMs else 0

/-- The energy of the frame is `energyDb`. -/
def process [LE E] [LT E] [DecidableLE E] [DecidableLT E] (energyDb : List S → E)
    (v : EnergyVad) (samples : List S) : EnergyVad × VadEvent :=
  if samples = [] then (v, .none)
  else if !v.inSpeech then
    if energyDb samples ≥ cfg.speechThresholdDb then
      if v.onsetFrames + 1 ≥ onsetNeeded cfg then
        ({ v with
            inSpeech := true, silenceFrames := 0, speechFrames := v.onsetFrames + 1,
            onsetFrames := 0 }, .speechStart)
      else ({ v with onsetFrames := v.onsetFrames + 1 }, .none)
    else ({ v with onsetFrames := 0 }, .none)
  else if energyDb samples < cfg.silenceThresholdDb then
    if v.silenceFrames + 1 ≥ holdFrames cfg then
      ({ v with inSpeech := false, silenceFrames := 0, speechFrames := 0 }, .speechEnd)
    else ({ v with silenceFrames := v.silenceFrames + 1 }, .none)
  else ({ v with silenceFrames := 0, speechFrames := v.speechFrames + 1 }, .none)

variable {cfg}

theorem toNat_onsetNeeded (h : cfg.Fits) : (onsetNeeded cfg).toNat = cfg.onset := by
  have hframe := h.frameMs_pos
  have hceil := toNat_add_pred_udiv hframe h.sum_le
  rw [onsetNeeded, EnergyVadConfig.onset]
  split_ifs with hpos
  · have honset : 0 < cfg.onsetMs.toNat := BitVec.lt_def.1 hpos.2
    rw [hceil, max_eq_right]
    by_contra hlt
    have hzero : cfg.onsetMs.toNat ⌈/⌉ cfg.frameMs.toNat ≤ 0 := by omega
    rw [ceilDiv_le_iff_le_mul hframe] at hzero
    omega
  · have honset : cfg.onsetMs.toNat = 0 := by
      by_contra hne
      exact hpos ⟨BitVec.lt_def.2 hframe, BitVec.lt_def.2 (Nat.pos_of_ne_zero hne)⟩
    rw [honset, zero_ceilDiv]
    rfl

theorem toNat_holdFrames (h : cfg.Fits) :
    (holdFrames cfg).toNat = cfg.holdMs.toNat / cfg.frameMs.toNat := by
  have hframe : cfg.frameMs > 0 := BitVec.lt_def.2 h.frameMs_pos
  rw [holdFrames, if_pos hframe, BitVec.toNat_udiv]

end EnergyVad

end Gateway

/-! ### The port -/

namespace VadSdk

structure EnergyVad where
  inSpeech : Bool := false
  silenceFrames : ℕ := 0
  speechFrames : ℕ := 0
  onsetFrames : ℕ := 0

namespace EnergyVad

variable {S E : Type*} (cfg : EnergyVadConfig E)

def holdFrames : ℕ := max 1 (cfg.holdMs.toNat / cfg.frameMs.toNat)

/-- `//` rounds down. -/
def onsetNeeded : ℕ := max 1 (-(-(cfg.onsetMs.toNat : ℤ) / cfg.frameMs.toNat)).toNat

def speechDurationMs (v : EnergyVad) : ℕ :=
  if v.inSpeech then v.speechFrames * cfg.frameMs.toNat else 0

def process [LE E] [LT E] [DecidableLE E] [DecidableLT E] (energyDb : List S → E)
    (v : EnergyVad) (pcm16Frame : List S) : EnergyVad × VadEvent :=
  if pcm16Frame.length = 0 then (v, .none)
  else if !v.inSpeech then
    if energyDb pcm16Frame ≥ cfg.speechThresholdDb then
      if v.onsetFrames + 1 ≥ onsetNeeded cfg then
        ({ v with
            inSpeech := true, silenceFrames := 0, speechFrames := v.onsetFrames + 1,
            onsetFrames := 0 }, .speechStart)
      else ({ v with onsetFrames := v.onsetFrames + 1 }, .none)
    else ({ v with onsetFrames := 0 }, .none)
  else if energyDb pcm16Frame < cfg.silenceThresholdDb then
    if v.silenceFrames + 1 ≥ holdFrames cfg then
      ({ v with inSpeech := false, silenceFrames := 0, speechFrames := 0 }, .speechEnd)
    else ({ v with silenceFrames := v.silenceFrames + 1 }, .none)
  else ({ v with silenceFrames := 0, speechFrames := v.speechFrames + 1 }, .none)

/-- The state of the detector is that of the debouncer. -/
def Refines (v : EnergyVad) : Debouncer → Prop
  | .off run => v.inSpeech = false ∧ v.onsetFrames = run ∧ run < cfg.onset
  | .on run => v.inSpeech = true ∧ v.onsetFrames = 0 ∧ v.silenceFrames = run ∧ run < cfg.hold

variable {cfg}

theorem onsetNeeded_eq (h : cfg.Fits) : onsetNeeded cfg = cfg.onset :=
  congrArg (max 1) (toNat_neg_neg_ediv h.frameMs_pos)

theorem refines_init : ({} : EnergyVad).Refines cfg (.off 0) := ⟨rfl, rfl, cfg.onset_pos⟩

variable [LE E] [LT E] [DecidableLE E] [DecidableLT E] {frame : List S} {s : Debouncer}
  {v : EnergyVad}

theorem step_eq (energyDb : List S → E) (hcfg : cfg.Fits) (h : v.Refines cfg s)
    (hne : frame ≠ []) :
    (v.process cfg energyDb frame).1.Refines cfg (cfg.step energyDb s frame).1 ∧
      (v.process cfg energyDb frame).2.edge? = (cfg.step energyDb s frame).2 := by
  have hlength : frame.length ≠ 0 := mt List.length_eq_zero_iff.1 hne
  rw [process, if_neg hlength, onsetNeeded_eq hcfg, EnergyVadConfig.step]
  cases s with
  | off run =>
    obtain ⟨hoff, rfl, hlt⟩ := h
    rw [Debouncer.step, hoff, if_pos (by rfl)]
    by_cases hloud : cfg.Loud energyDb frame
    · have hge : energyDb frame ≥ cfg.speechThresholdDb := hloud
      rw [if_pos hge, if_pos hloud]
      by_cases hrun : cfg.onset ≤ v.onsetFrames + 1
      · rw [if_pos hrun, if_pos hrun]
        exact ⟨⟨rfl, rfl, rfl, cfg.hold_pos⟩, rfl⟩
      · rw [if_neg hrun, if_neg hrun]
        exact ⟨⟨rfl, rfl, Nat.lt_of_not_le hrun⟩, rfl⟩
    · have hge : ¬ energyDb frame ≥ cfg.speechThresholdDb := hloud
      rw [if_neg hge, if_neg hloud]
      exact ⟨⟨rfl, rfl, cfg.onset_pos⟩, rfl⟩
  | on run =>
    obtain ⟨hon, hzero, rfl, hlt⟩ := h
    rw [Debouncer.step, hon, if_neg (by decide)]
    by_cases hquiet : cfg.Quiet energyDb frame
    · have hbelow : energyDb frame < cfg.silenceThresholdDb := hquiet
      rw [if_pos hbelow, if_pos hquiet]
      by_cases hrun : cfg.hold ≤ v.silenceFrames + 1
      · have hover : v.silenceFrames + 1 ≥ holdFrames cfg := hrun
        rw [if_pos hover, if_pos hrun]
        exact ⟨⟨rfl, hzero, cfg.onset_pos⟩, rfl⟩
      · have hover : ¬ v.silenceFrames + 1 ≥ holdFrames cfg := hrun
        rw [if_neg hover, if_neg hrun]
        exact ⟨⟨rfl, hzero, rfl, Nat.lt_of_not_le hrun⟩, rfl⟩
    · have hbelow : ¬ energyDb frame < cfg.silenceThresholdDb := hquiet
      rw [if_neg hbelow, if_neg hquiet]
      exact ⟨⟨rfl, hzero, rfl, cfg.hold_pos⟩, rfl⟩

end EnergyVad

end VadSdk

variable {S E : Type*} {cfg : EnergyVadConfig E}

/-! ### The gateway keeps the counters of the port -/

namespace Gateway.EnergyVad

/-- The speech frames are counted modulo 2 ^ 32, the others never come that far. -/
structure Counts (v : EnergyVad) (w : VadSdk.EnergyVad) : Prop where
  inSpeech : v.inSpeech = w.inSpeech
  onsetFrames : v.onsetFrames.toNat = w.onsetFrames
  silenceFrames : v.silenceFrames.toNat = w.silenceFrames
  speechFrames : v.speechFrames = BitVec.ofNat 32 w.speechFrames

variable {v : EnergyVad} {w : VadSdk.EnergyVad}

theorem Counts.speechDurationMs (h : v.Counts w) :
    v.speechDurationMs cfg = BitVec.ofNat 32 (w.speechDurationMs cfg) := by
  rw [EnergyVad.speechDurationMs, VadSdk.EnergyVad.speechDurationMs, h.inSpeech, h.speechFrames]
  split
  · rw [BitVec.ofNat_mul, BitVec.ofNat_toNat, BitVec.setWidth_eq]
  · rfl

variable [LE E] [LT E] [DecidableLE E] [DecidableLT E] {s : Debouncer}

/-- The counters stay the same, and so do the events. -/
theorem Counts.process (energyDb : List S → E) (hcfg : cfg.Fits) (h : v.Counts w)
    (hw : w.Refines cfg s) (frame : List S) :
    (v.process cfg energyDb frame).1.Counts (w.process cfg energyDb frame).1 ∧
      (v.process cfg energyDb frame).2 = (w.process cfg energyDb frame).2 := by
  obtain ⟨hspeech, honset, hsilence, hframes⟩ := h
  rw [EnergyVad.process, VadSdk.EnergyVad.process]
  by_cases hempty : frame = []
  · rw [if_pos hempty, if_pos (List.length_eq_zero_iff.2 hempty)]
    exact ⟨⟨hspeech, honset, hsilence, hframes⟩, rfl⟩
  rw [if_neg hempty, if_neg (mt List.length_eq_zero_iff.1 hempty), hspeech,
    VadSdk.EnergyVad.onsetNeeded_eq hcfg]
  cases s with
  | off run =>
    obtain ⟨hoff, rfl, hlt⟩ := hw
    have hnext : (v.onsetFrames + 1).toNat = w.onsetFrames + 1 := by
      rw [toNat_succ (by rwa [honset]) (cfg.onset_lt hcfg), honset]
    have hle : v.onsetFrames + 1 ≥ onsetNeeded cfg ↔ w.onsetFrames + 1 ≥ cfg.onset := by
      rw [ge_iff_le, BitVec.le_def, toNat_onsetNeeded hcfg, hnext]
    have hsum : v.onsetFrames + 1 = BitVec.ofNat 32 (w.onsetFrames + 1) := by
      rw [← hnext, BitVec.ofNat_toNat, BitVec.setWidth_eq]
    have hnot : (!false) = true := rfl
    rw [hoff, if_pos hnot, if_pos hnot]
    by_cases hge : energyDb frame ≥ cfg.speechThresholdDb
    · rw [if_pos hge, if_pos hge]
      by_cases hrun : w.onsetFrames + 1 ≥ cfg.onset
      · rw [if_pos (hle.2 hrun), if_pos hrun]
        exact ⟨⟨rfl, rfl, rfl, hsum⟩, rfl⟩
      · rw [if_neg (hle.not.2 hrun), if_neg hrun]
        exact ⟨⟨rfl, hnext, hsilence, hframes⟩, rfl⟩
    · rw [if_neg hge, if_neg hge]
      exact ⟨⟨rfl, rfl, hsilence, hframes⟩, rfl⟩
  | on run =>
    obtain ⟨hon, -, rfl, hlt⟩ := hw
    have hnext : (v.silenceFrames + 1).toNat = w.silenceFrames + 1 := by
      rw [toNat_succ (by rwa [hsilence]) cfg.hold_lt, hsilence]
    -- A hold of no frames is over with the first one, as one of a single frame is.
    have hle : v.silenceFrames + 1 ≥ holdFrames cfg ↔
        w.silenceFrames + 1 ≥ VadSdk.EnergyVad.holdFrames cfg := by
      rw [ge_iff_le, BitVec.le_def, toNat_holdFrames hcfg, hnext, VadSdk.EnergyVad.holdFrames]
      omega
    have hnot : ¬ (!true) = true := by decide
    rw [hon, if_neg hnot, if_neg hnot]
    by_cases hbelow : energyDb frame < cfg.silenceThresholdDb
    · rw [if_pos hbelow, if_pos hbelow]
      by_cases hrun : w.silenceFrames + 1 ≥ VadSdk.EnergyVad.holdFrames cfg
      · rw [if_pos (hle.2 hrun), if_pos hrun]
        exact ⟨⟨rfl, honset, rfl, rfl⟩, rfl⟩
      · rw [if_neg (hle.not.2 hrun), if_neg hrun]
        exact ⟨⟨rfl, honset, hnext, hframes⟩, rfl⟩
    · rw [if_neg hbelow, if_neg hbelow]
      refine ⟨⟨rfl, honset, rfl, ?_⟩, rfl⟩
      rw [hframes]
      exact (BitVec.ofNat_add _ _).symm

end Gateway.EnergyVad

namespace Vad

theorem map_fst_outputs {V F D : Type*} {process : V → F → V × VadEvent} {duration : V → D} {v : V}
    {frames : List F} : (outputs process duration v frames).map Prod.fst = frames := by
  induction frames generalizing v with
  | nil => rfl
  | cons f fs ih => rw [outputs, List.map_cons, ih]

/-- The two detectors say the same of every frame, but the gateway has 32 bits for the duration. -/
def Agree (cpp : List S × VadEvent × BitVec 32) (py : List S × VadEvent × ℕ) : Prop :=
  cpp.1 = py.1 ∧ cpp.2.1 = py.2.1 ∧ cpp.2.2.toNat = py.2.2 % 2 ^ 32

theorem edges_eq_of_agree {cpp : List (List S × VadEvent × BitVec 32)}
    {py : List (List S × VadEvent × ℕ)} (h : List.Forall₂ Agree cpp py) : edges cpp = edges py := by
  induction h with
  | nil => rfl
  | cons hagree _ ih =>
    obtain ⟨hframe, hevent, -⟩ := hagree
    rw [edges, edges, List.map_cons, List.map_cons, hframe, hevent]
    exact congrArg (List.cons _) ih

variable [LE E] [LT E] [DecidableLE E] [DecidableLT E] {energyDb : List S → E} {s : Debouncer}

/-- The trace of the port is the one of the debouncer. -/
theorem edges_outputs (hcfg : cfg.Fits) {frames : List (List S)} (hne : ∀ f ∈ frames, f ≠ [])
    {w : VadSdk.EnergyVad} (hw : w.Refines cfg s) :
    edges (outputs (VadSdk.EnergyVad.process cfg energyDb)
        (VadSdk.EnergyVad.speechDurationMs cfg) w frames) =
      s.trace (cfg.Loud energyDb) (cfg.Quiet energyDb) cfg.onset cfg.hold frames := by
  induction frames generalizing w s with
  | nil => rfl
  | cons f fs ih =>
    obtain ⟨hnext, hedge⟩ := VadSdk.EnergyVad.step_eq energyDb hcfg hw (hne f (by simp))
    rw [outputs, edges, List.map_cons, Debouncer.trace]
    refine congrArg₂ List.cons (congrArg (Prod.mk f) hedge) ?_
    exact ih (fun f' hf' => hne f' (List.mem_cons_of_mem f hf')) hnext

theorem agree_outputs (hcfg : cfg.Fits) {frames : List (List S)} (hne : ∀ f ∈ frames, f ≠ [])
    {v : Gateway.EnergyVad} {w : VadSdk.EnergyVad} (h : v.Counts w) (hw : w.Refines cfg s) :
    List.Forall₂ Agree
      (outputs (Gateway.EnergyVad.process cfg energyDb)
        (Gateway.EnergyVad.speechDurationMs cfg) v frames)
      (outputs (VadSdk.EnergyVad.process cfg energyDb)
        (VadSdk.EnergyVad.speechDurationMs cfg) w frames) := by
  induction frames generalizing v w s with
  | nil => exact List.Forall₂.nil
  | cons f fs ih =>
    obtain ⟨hnext, hevent⟩ := h.process energyDb hcfg hw f
    have hw' := (VadSdk.EnergyVad.step_eq energyDb hcfg hw (hne f (by simp))).1
    refine List.Forall₂.cons ⟨rfl, hevent, ?_⟩ ?_
    · rw [hnext.speechDurationMs, BitVec.toNat_ofNat]
    · exact ih (fun f' hf' => hne f' (List.mem_cons_of_mem f hf')) hnext hw'

end Vad

variable [LE E] [LT E] [DecidableLE E] [DecidableLT E] {energyDb : List S → E}

/-- What the detector of the gateway says of some frames, one after the other. -/
def Gateway.EnergyVad.run (cfg : EnergyVadConfig E) (energyDb : List S → E)
    (frames : List (List S)) : List (List S × VadEvent × BitVec 32) :=
  outputs (process cfg energyDb) (speechDurationMs cfg) {} frames

def VadSdk.EnergyVad.run (cfg : EnergyVadConfig E) (energyDb : List S → E)
    (frames : List (List S)) : List (List S × VadEvent × ℕ) :=
  outputs (process cfg energyDb) (speechDurationMs cfg) {} frames

/-- Speech starts where the first onset since the last end is complete, and ends where the first
hold since the last start is. -/
structure Vad.Meets {D : Type*} (cfg : EnergyVadConfig E) (energyDb : List S → E)
    (frames : List (List S)) (out : List (List S × VadEvent × D)) : Prop where
  frames_eq : out.map Prod.fst = frames
  debounced : Debounced (cfg.Loud energyDb) (cfg.Quiet energyDb) cfg.onset cfg.hold (edges out)
  alternates : Alternates ((edges out).filterMap Prod.snd)

/-- Both detectors find the speech, and they are of the same opinion about its duration. -/
theorem Vad.debounced (hcfg : cfg.Fits) {frames : List (List S)} (hne : ∀ f ∈ frames, f ≠ []) :
    Meets cfg energyDb frames (Gateway.EnergyVad.run cfg energyDb frames) ∧
      Meets cfg energyDb frames (VadSdk.EnergyVad.run cfg energyDb frames) ∧
      List.Forall₂ Agree (Gateway.EnergyVad.run cfg energyDb frames)
        (VadSdk.EnergyVad.run cfg energyDb frames) := by
  have hagree : List.Forall₂ Agree (Gateway.EnergyVad.run cfg energyDb frames)
      (VadSdk.EnergyVad.run cfg energyDb frames) :=
    agree_outputs hcfg hne ⟨rfl, rfl, rfl, rfl⟩ VadSdk.EnergyVad.refines_init
  have htrace : edges (VadSdk.EnergyVad.run cfg energyDb frames) =
      (Debouncer.off 0).trace (cfg.Loud energyDb) (cfg.Quiet energyDb) cfg.onset cfg.hold frames :=
    edges_outputs hcfg hne VadSdk.EnergyVad.refines_init
  have hdebounced : Debounced (cfg.Loud energyDb) (cfg.Quiet energyDb) cfg.onset cfg.hold
      (edges (VadSdk.EnergyVad.run cfg energyDb frames)) := by
    rw [htrace]
    exact Debouncer.debounced_trace cfg.onset_pos.ne' cfg.hold_pos.ne' frames
  refine ⟨⟨map_fst_outputs, ?_, ?_⟩, ⟨map_fst_outputs, hdebounced, hdebounced.alternates⟩, hagree⟩
  · rw [edges_eq_of_agree hagree]
    exact hdebounced
  · rw [edges_eq_of_agree hagree]
    exact hdebounced.alternates

/-- The energy of a frame at full scale, or of digital silence. -/
def Vad.scaleDb (frame : List ℤ) : ℤ := if ∀ s ∈ frame, s = 0 then -96 else 0

/-- Two loud frames start the speech, and two silent ones end it. -/
theorem Vad.debounced_shout :
    let cfg : EnergyVadConfig ℤ := ⟨-35, -40, 40, 20, 40⟩
    let frames : List (List ℤ) := [[-32768], [-32768], [0], [0]]
    ((Gateway.EnergyVad.run cfg scaleDb frames).map fun o => o.2) =
        [(.none, 0), (.speechStart, 40), (.none, 40), (.speechEnd, 0)] ∧
      Meets cfg scaleDb frames (Gateway.EnergyVad.run cfg scaleDb frames) ∧
      Meets cfg scaleDb frames (VadSdk.EnergyVad.run cfg scaleDb frames) ∧
      List.Forall₂ Agree (Gateway.EnergyVad.run cfg scaleDb frames)
        (VadSdk.EnergyVad.run cfg scaleDb frames) :=
  ⟨by decide, debounced ⟨by decide, by decide⟩ (by decide)⟩

end Yuviz
