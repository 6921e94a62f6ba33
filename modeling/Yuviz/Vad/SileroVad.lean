import Yuviz.Vad.EnergyVad

/-!
# The Silero VAD

The detector of speech of the gateway that has a model for the probability of
speech in a window, and its port to Python. The model is left open: it maps the
context, the window and the state of the network to a probability and the next
state, or fails.

The two are not the same. In the speech the gateway counts every window, the port
those that are not silent, and after a failure the gateway still has the old
context, the port that of the window. A silent window that does not end the speech
gives two durations (`not_same`); where none comes in the speech, and no
failure changes the context, the two are the same (`same_iff`).
-/

namespace Yuviz

namespace Vad

/-- What the detector has from the model. -/
structure SileroModel (S F H P : Type*) where
  /-- A sample as a float in [-1, 1]. -/
  norm : S → F
  zero : F
  zeroState : H
  run : List F → H → H → Option (P × H × H)

structure SileroVadConfig (P : Type*) where
  speechThreshold : P
  silenceThreshold : P
  onsetMs : BitVec 32
  holdMs : BitVec 32

/-- Samples of a window, and of the context. -/
def kWindow : ℕ := 512

def kContext : ℕ := 64

end Vad

open Vad

variable {S F H P : Type*}

/-! ### The gateway -/

namespace Gateway

structure SileroVad (F H : Type*) where
  accum : List F
  context : List F
  h : H
  c : H
  inSpeech : Bool
  onsetWindows : BitVec 32
  silenceWindows : BitVec 32
  speechWindows : BitVec 32

namespace SileroVad

def kWindowMs : BitVec 32 := 32

/-- `(ms + kWindowMs - 1) / kWindowMs`, and at least one. -/
def windowsNeeded (ms : BitVec 32) : BitVec 32 :=
  let windows := (ms + kWindowMs - 1) / kWindowMs
  if 1 < windows then windows else 1

def init (model : SileroModel S F H P) : SileroVad F H where
  accum := []
  context := List.replicate kContext model.zero
  h := model.zeroState
  c := model.zeroState
  inSpeech := false
  onsetWindows := 0
  silenceWindows := 0
  speechWindows := 0

/-- Inference on the first window of `accum`, which consumes it. -/
def inferWindow (model : SileroModel S F H P) (v : SileroVad F H) : Option (P × SileroVad F H) :=
  (model.run (v.context ++ v.accum.take kWindow) v.h v.c).map fun (prob, hn, cn) =>
    (prob, { v with
      h := hn
      c := cn
      context := (v.accum.take kWindow).drop (kWindow - kContext)
      accum := v.accum.drop kWindow })

section

variable [LE P] [LT P] [DecidableLE P] [DecidableLT P]

/-- What a probability does. -/
def score (cfg : SileroVadConfig P) (v : SileroVad F H) (prob : P) : SileroVad F H × VadEvent :=
  if !v.inSpeech then
    if prob ≥ cfg.speechThreshold then
      if v.onsetWindows + 1 ≥ windowsNeeded cfg.onsetMs then
        ({ v with
            inSpeech := true, speechWindows := v.onsetWindows + 1, onsetWindows := 0,
            silenceWindows := 0 }, .speechStart)
      else ({ v with onsetWindows := v.onsetWindows + 1 }, .none)
    else ({ v with onsetWindows := 0 }, .none)
  else if prob < cfg.silenceThreshold then
    if v.silenceWindows + 1 ≥ windowsNeeded cfg.holdMs then
      ({ v with inSpeech := false, silenceWindows := 0, speechWindows := 0 }, .speechEnd)
    else
      ({ v with speechWindows := v.speechWindows + 1, silenceWindows := v.silenceWindows + 1 },
        .none)
  else ({ v with speechWindows := v.speechWindows + 1, silenceWindows := 0 }, .none)

def process (cfg : SileroVadConfig P) (model : SileroModel S F H P) (v : SileroVad F H)
    (samples : List S) : SileroVad F H × VadEvent :=
  if samples = [] then (v, .none)
  else
    let v := { v with accum := v.accum ++ samples.map model.norm }
    if v.accum.length < kWindow then (v, .none)
    else match v.inferWindow model with
      -- The window is consumed anyway.
      | none => ({ v with accum := v.accum.drop kWindow }, .none)
      | some (prob, v) => v.score cfg prob

end

def speechDurationMs (v : SileroVad F H) : BitVec 32 :=
  if v.inSpeech then v.speechWindows * kWindowMs else 0

end SileroVad

end Gateway

/-! ### The port -/

namespace VadSdk

structure SileroVad (F H : Type*) where
  context : List F
  h : H
  c : H
  inSpeech : Bool
  onsetWindows : ℕ
  silenceWindows : ℕ
  speechWindows : ℕ

namespace SileroVad

def windowMs : ℕ := 32

/-- `//` rounds down. -/
def windowsNeeded (ms : BitVec 32) : ℕ := max 1 (-(-(ms.toNat : ℤ) / windowMs)).toNat

def init (model : SileroModel S F H P) : SileroVad F H where
  context := List.replicate kContext model.zero
  h := model.zeroState
  c := model.zeroState
  inSpeech := false
  onsetWindows := 0
  silenceWindows := 0
  speechWindows := 0

section

variable [LE P] [LT P] [DecidableLE P] [DecidableLT P]

def score (cfg : SileroVadConfig P) (v : SileroVad F H) (prob : P) : SileroVad F H × VadEvent :=
  if !v.inSpeech then
    if prob ≥ cfg.speechThreshold then
      if v.onsetWindows + 1 ≥ windowsNeeded cfg.onsetMs then
        ({ v with
            inSpeech := true, silenceWindows := 0, speechWindows := v.onsetWindows + 1,
            onsetWindows := 0 }, .speechStart)
      else ({ v with onsetWindows := v.onsetWindows + 1 }, .none)
    else ({ v with onsetWindows := 0 }, .none)
  else if prob < cfg.silenceThreshold then
    if v.silenceWindows + 1 ≥ windowsNeeded cfg.holdMs then
      ({ v with inSpeech := false, silenceWindows := 0, speechWindows := 0 }, .speechEnd)
    else ({ v with silenceWindows := v.silenceWindows + 1 }, .none)
  else ({ v with silenceWindows := 0, speechWindows := v.speechWindows + 1 }, .none)

def process (cfg : SileroVadConfig P) (model : SileroModel S F H P) (v : SileroVad F H)
    (pcm16Window : List S) : SileroVad F H × VadEvent :=
  if pcm16Window.length ≠ kWindow then (v, .none)
  else
    let samples := pcm16Window.map model.norm
    let modelInput := v.context ++ samples
    let v := { v with context := samples.drop (samples.length - kContext) }
    match model.run modelInput v.h v.c with
    | none => (v, .none)
    | some (prob, h, c) => { v with h := h, c := c }.score cfg prob

end

def speechDurationMs (v : SileroVad F H) : ℕ :=
  if v.inSpeech then v.speechWindows * windowMs else 0

end SileroVad

end VadSdk

/-! ### What the two say -/

namespace Vad

variable (cfg : SileroVadConfig P) (model : SileroModel S F H P)

def SameOutput (cpp : List S × VadEvent × BitVec 32) (py : List S × VadEvent × ℕ) : Prop :=
  cpp.2.1 = py.2.1 ∧ cpp.2.2.toNat = py.2.2

instance {cpp : List S × VadEvent × BitVec 32} {py : List S × VadEvent × ℕ} :
    Decidable (SameOutput cpp py) :=
  inferInstanceAs (Decidable (cpp.2.1 = py.2.1 ∧ cpp.2.2.toNat = py.2.2))

/-- The two say the same of every window. -/
def SileroVadConfig.Same [LE P] [LT P] [DecidableLE P] [DecidableLT P]
    (windows : List (List S)) : Prop :=
  List.Forall₂ SameOutput
    (outputs (Gateway.SileroVad.process cfg model) Gateway.SileroVad.speechDurationMs
      (Gateway.SileroVad.init model) windows)
    (outputs (VadSdk.SileroVad.process cfg model) VadSdk.SileroVad.speechDurationMs
      (VadSdk.SileroVad.init model) windows)

instance [LE P] [LT P] [DecidableLE P] [DecidableLT P] {windows : List (List S)} :
    Decidable (cfg.Same model windows) :=
  inferInstanceAs (Decidable (List.Forall₂ SameOutput _ _))

/-- The sums of milliseconds are within 32 bits. -/
structure SileroVadConfig.Fits : Prop where
  onsetMs_le : cfg.onsetMs.toNat + 32 ≤ 2 ^ 32
  holdMs_le : cfg.holdMs.toNat + 32 ≤ 2 ^ 32

end Vad

namespace VadSdk.SileroVad

variable (cfg : SileroVadConfig P) (model : SileroModel S F H P)

/-- If the model fails on the window, the context is its tail already. -/
def FailureKeepsContext (v : SileroVad F H) (window : List S) : Prop :=
  model.run (v.context ++ window.map model.norm) v.h v.c = none →
    (window.map model.norm).drop (kWindow - kContext) = v.context

/-- In speech, silence completes the hold, and the rest leaves the duration within 32 bits. -/
def InTime [LT P] [DecidableLT P] (v : SileroVad F H) (prob : P) : Prop :=
  v.inSpeech = true →
    if prob < cfg.silenceThreshold then windowsNeeded cfg.holdMs ≤ v.silenceWindows + 1
    else (v.speechWindows + 1) * windowMs < 2 ^ 32

/-- The window is in time if the model has a probability for it. -/
def WindowInTime [LT P] [DecidableLT P] (v : SileroVad F H) (window : List S) : Prop :=
  ∀ prob hn cn, model.run (v.context ++ window.map model.norm) v.h v.c = some (prob, hn, cn) →
    v.InTime cfg prob

/-- What holds of every window and the state of the port it comes in. -/
def Throughout [LE P] [LT P] [DecidableLE P] [DecidableLT P]
    (p : SileroVad F H → List S → Prop) : SileroVad F H → List (List S) → Prop
  | _, [] => True
  | v, window :: windows => p v window ∧ Throughout p (v.process cfg model window).1 windows

end VadSdk.SileroVad

/-! ### One window -/

namespace Gateway.SileroVad

/-- The state of the gateway is that of the port, between two windows. -/
structure Tracks (cfg : SileroVadConfig P) (v : SileroVad F H) (w : VadSdk.SileroVad F H) :
    Prop where
  accum : v.accum = []
  context : v.context = w.context
  h : v.h = w.h
  c : v.c = w.c
  inSpeech : v.inSpeech = w.inSpeech
  onsetWindows : v.onsetWindows.toNat = w.onsetWindows
  silenceWindows : v.silenceWindows.toNat = w.silenceWindows
  speechWindows : v.speechWindows.toNat = w.speechWindows
  onset_lt : w.onsetWindows < VadSdk.SileroVad.windowsNeeded cfg.onsetMs
  silence_lt : w.silenceWindows < VadSdk.SileroVad.windowsNeeded cfg.holdMs
  speech_lt : w.speechWindows * VadSdk.SileroVad.windowMs < 2 ^ 32

variable {cfg : SileroVadConfig P} {model : SileroModel S F H P} {v : SileroVad F H}
  {w : VadSdk.SileroVad F H} {window : List S} {ms : BitVec 32} {prob : P}

theorem windowsNeeded_eq : VadSdk.SileroVad.windowsNeeded ms = max 1 (ms.toNat ⌈/⌉ 32) :=
  congrArg (max 1) (toNat_neg_neg_ediv (by decide))

theorem windowsNeeded_pos : 0 < VadSdk.SileroVad.windowsNeeded ms :=
  Nat.lt_of_lt_of_le Nat.one_pos (le_max_left _ _)

/-- As many milliseconds as were asked for, rounded up to windows. -/
theorem windowsNeeded_mul_lt (h : ms.toNat + 32 ≤ 2 ^ 32) :
    VadSdk.SileroVad.windowsNeeded ms * 32 < 2 ^ 32 := by
  have hmul := Nat.div_mul_le_self (ms.toNat + 32 - 1) 32
  rw [windowsNeeded_eq, Nat.ceilDiv_eq_add_pred_div]
  omega

theorem toNat_windowsNeeded (h : ms.toNat + 32 ≤ 2 ^ 32) :
    (windowsNeeded ms).toNat = VadSdk.SileroVad.windowsNeeded ms := by
  have hceil : ((ms + kWindowMs - 1) / kWindowMs).toNat = ms.toNat ⌈/⌉ 32 :=
    toNat_add_pred_udiv (by decide) h
  have hlt : 1 < (ms + kWindowMs - 1) / kWindowMs ↔ 1 < ms.toNat ⌈/⌉ 32 := by
    rw [BitVec.lt_def, hceil]
    rfl
  rw [windowsNeeded_eq, windowsNeeded]
  split_ifs with hwindows
  · rw [hceil, max_eq_right (hlt.1 hwindows).le]
  · rw [max_eq_left (Nat.le_of_not_lt (hlt.not.1 hwindows))]
    rfl

theorem tracks_init : (init model).Tracks cfg (VadSdk.SileroVad.init model) where
  accum := rfl
  context := rfl
  h := rfl
  c := rfl
  inSpeech := rfl
  onsetWindows := rfl
  silenceWindows := rfl
  speechWindows := rfl
  onset_lt := windowsNeeded_pos
  silence_lt := windowsNeeded_pos
  speech_lt := Nat.two_pow_pos 32

/-- The milliseconds of some windows, if they are within 32 bits. -/
theorem toNat_mul_windowMs {b : BitVec 32} {n : ℕ} (hb : b.toNat = n)
    (hn : n * VadSdk.SileroVad.windowMs < 2 ^ 32) :
    (b * kWindowMs).toNat = n * VadSdk.SileroVad.windowMs := by
  rw [BitVec.toNat_mul, hb]
  exact Nat.mod_eq_of_lt hn

theorem Tracks.speechDurationMs (h : v.Tracks cfg w) :
    v.speechDurationMs.toNat = w.speechDurationMs := by
  rw [SileroVad.speechDurationMs, VadSdk.SileroVad.speechDurationMs, h.inSpeech]
  split
  · exact toNat_mul_windowMs h.speechWindows h.speech_lt
  · rfl

variable [LE P] [LT P] [DecidableLE P] [DecidableLT P]

/-- A silent window that leaves the speech on counts for the gateway alone. -/
theorem Tracks.score (hcfg : cfg.Fits) (h : v.Tracks cfg w) (prob : P) :
    (v.score cfg prob).2 = (w.score cfg prob).2 ∧
      ((v.score cfg prob).1.speechDurationMs.toNat = (w.score cfg prob).1.speechDurationMs ↔
        w.InTime cfg prob) ∧
      (w.InTime cfg prob → (v.score cfg prob).1.Tracks cfg (w.score cfg prob).1) := by
  have honset := windowsNeeded_mul_lt hcfg.onsetMs_le
  have hhold := windowsNeeded_mul_lt hcfg.holdMs_le
  rw [SileroVad.score, VadSdk.SileroVad.score, h.inSpeech]
  cases hspeech : w.inSpeech with
  | false =>
    have hnot : (!false) = true := rfl
    have hin : w.InTime cfg prob := by
      rw [VadSdk.SileroVad.InTime, hspeech]
      exact nofun
    have hnext : (v.onsetWindows + 1).toNat = w.onsetWindows + 1 := by
      rw [toNat_succ (by rw [h.onsetWindows]; exact h.onset_lt) (by omega), h.onsetWindows]
    have hle : v.onsetWindows + 1 ≥ windowsNeeded cfg.onsetMs ↔
        w.onsetWindows + 1 ≥ VadSdk.SileroVad.windowsNeeded cfg.onsetMs := by
      rw [ge_iff_le, BitVec.le_def, toNat_windowsNeeded hcfg.onsetMs_le, hnext]
    rw [if_pos hnot, if_pos hnot]
    by_cases hge : prob ≥ cfg.speechThreshold
    · rw [if_pos hge, if_pos hge]
      by_cases hrun : w.onsetWindows + 1 ≥ VadSdk.SileroVad.windowsNeeded cfg.onsetMs
      · rw [if_pos (hle.2 hrun), if_pos hrun]
        have hduration : (w.onsetWindows + 1) * VadSdk.SileroVad.windowMs < 2 ^ 32 := by
          have := h.onset_lt
          rw [VadSdk.SileroVad.windowMs]
          omega
        refine ⟨rfl, iff_of_true ?_ hin, fun _ => ?_⟩
        · exact toNat_mul_windowMs hnext hduration
        · exact { h with
            inSpeech := rfl, onsetWindows := rfl, silenceWindows := rfl, speechWindows := hnext,
            onset_lt := windowsNeeded_pos, silence_lt := windowsNeeded_pos, speech_lt := hduration }
      · rw [if_neg (hle.not.2 hrun), if_neg hrun]
        refine ⟨rfl, iff_of_true rfl hin, fun _ => ?_⟩
        exact { h with
          inSpeech := rfl, onsetWindows := hnext, onset_lt := Nat.lt_of_not_le hrun }
    · rw [if_neg hge, if_neg hge]
      refine ⟨rfl, iff_of_true rfl hin, fun _ => ?_⟩
      exact { h with inSpeech := rfl, onsetWindows := rfl, onset_lt := windowsNeeded_pos }
  | true =>
    have hnot : ¬ (!true) = true := by decide
    have hnext : (v.silenceWindows + 1).toNat = w.silenceWindows + 1 := by
      rw [toNat_succ (by rw [h.silenceWindows]; exact h.silence_lt) (by omega), h.silenceWindows]
    have hle : v.silenceWindows + 1 ≥ windowsNeeded cfg.holdMs ↔
        w.silenceWindows + 1 ≥ VadSdk.SileroVad.windowsNeeded cfg.holdMs := by
      rw [ge_iff_le, BitVec.le_def, toNat_windowsNeeded hcfg.holdMs_le, hnext]
    have hspoken := h.speech_lt
    rw [VadSdk.SileroVad.windowMs] at hspoken
    have hcount : (v.speechWindows + 1).toNat = w.speechWindows + 1 := by
      rw [toNat_succ (Nat.lt_succ_self _) (by rw [h.speechWindows]; omega), h.speechWindows]
    rw [if_neg hnot, if_neg hnot, VadSdk.SileroVad.InTime, hspeech]
    by_cases hbelow : prob < cfg.silenceThreshold
    · rw [if_pos hbelow, if_pos hbelow, if_pos hbelow]
      by_cases hrun : w.silenceWindows + 1 ≥ VadSdk.SileroVad.windowsNeeded cfg.holdMs
      · rw [if_pos (hle.2 hrun), if_pos hrun]
        refine ⟨rfl, iff_of_true rfl fun _ => hrun, fun _ => ?_⟩
        exact { h with
          inSpeech := rfl, silenceWindows := rfl, speechWindows := rfl
          silence_lt := windowsNeeded_pos, speech_lt := Nat.two_pow_pos 32 }
      · rw [if_neg (hle.not.2 hrun), if_neg hrun]
        refine ⟨rfl, iff_of_false ?_ fun h => hrun (h rfl), fun h => absurd (h rfl) hrun⟩
        rw [SileroVad.speechDurationMs, VadSdk.SileroVad.speechDurationMs, if_pos rfl, if_pos rfl,
          BitVec.toNat_mul, hcount]
        have hmod : (w.speechWindows + 1) * 32 % 2 ^ 32 ≠ w.speechWindows * 32 := by omega
        exact hmod
    · rw [if_neg hbelow, if_neg hbelow, if_neg hbelow]
      refine ⟨rfl, ?_, fun htime => ?_⟩
      · rw [SileroVad.speechDurationMs, VadSdk.SileroVad.speechDurationMs, if_pos rfl, if_pos rfl,
          BitVec.toNat_mul, hcount]
        exact Nat.mod_eq_iff_lt (by decide) |>.trans ⟨fun hlt _ => hlt, fun htime => htime rfl⟩
      · exact { h with
          inSpeech := rfl, silenceWindows := rfl, speechWindows := hcount,
          silence_lt := windowsNeeded_pos, speech_lt := htime rfl }

theorem Tracks.process (hcfg : cfg.Fits) (h : v.Tracks cfg w) (hlength : window.length = kWindow)
    (hkeeps : w.FailureKeepsContext model window) :
    (v.process cfg model window).2 = (w.process cfg model window).2 ∧
      ((v.process cfg model window).1.speechDurationMs.toNat =
        (w.process cfg model window).1.speechDurationMs ↔ w.WindowInTime cfg model window) ∧
      (w.WindowInTime cfg model window →
        (v.process cfg model window).1.Tracks cfg (w.process cfg model window).1) := by
  have hne : window ≠ [] := by
    rintro rfl
    cases hlength
  have hmap : (window.map model.norm).length = kWindow := by rw [List.length_map, hlength]
  rw [SileroVad.process, VadSdk.SileroVad.process, if_neg hne, if_neg (not_not.2 hlength)]
  simp only [h.accum, List.nil_append, hmap, lt_irrefl, if_false, inferWindow,
    List.take_of_length_le hmap.le, List.drop_of_length_le hmap.le, h.context, h.h, h.c]
  rcases hrun : model.run (w.context ++ window.map model.norm) w.h w.c with - | ⟨prob, hn, cn⟩
  · have htime : w.WindowInTime cfg model window := by
      intro prob hn cn hsome
      rw [hrun] at hsome
      cases hsome
    have hnext : Tracks cfg { v with accum := [], context := w.context, h := w.h, c := w.c }
        { w with context := (window.map model.norm).drop (kWindow - kContext) } :=
      { h with accum := rfl, context := (hkeeps hrun).symm, h := rfl, c := rfl }
    exact ⟨rfl, iff_of_true hnext.speechDurationMs htime, fun _ => hnext⟩
  · have htime : w.WindowInTime cfg model window ↔ w.InTime cfg prob := by
      rw [VadSdk.SileroVad.WindowInTime, hrun]
      exact ⟨fun h => h prob hn cn rfl, fun h prob hn cn heq => by cases heq; exact h⟩
    rw [htime]
    refine Tracks.score hcfg ?_ prob
    exact { h with accum := rfl, context := rfl, h := rfl, c := rfl }

/-- All windows, from two states that are the same. -/
theorem Tracks.forall₂_iff (hcfg : cfg.Fits) {windows : List (List S)}
    (hlength : ∀ window ∈ windows, window.length = kWindow) (h : v.Tracks cfg w)
    (hkeeps : w.Throughout cfg model (VadSdk.SileroVad.FailureKeepsContext model) windows) :
    List.Forall₂ SameOutput
      (outputs (SileroVad.process cfg model) SileroVad.speechDurationMs v windows)
      (outputs (VadSdk.SileroVad.process cfg model) VadSdk.SileroVad.speechDurationMs w windows) ↔
      w.Throughout cfg model (VadSdk.SileroVad.WindowInTime cfg model) windows := by
  induction windows generalizing v w with
  | nil => exact iff_of_true List.Forall₂.nil trivial
  | cons window windows ih =>
    obtain ⟨hevent, hduration, hnext⟩ := h.process hcfg (hlength window (by simp)) hkeeps.1
    have hrest := fun w' hw' => hlength w' (List.mem_cons_of_mem window hw')
    rw [outputs, outputs, List.forall₂_cons, SameOutput, VadSdk.SileroVad.Throughout]
    constructor
    · rintro ⟨⟨-, hsame⟩, hall⟩
      have htime := hduration.1 hsame
      exact ⟨htime, (ih hrest (hnext htime) hkeeps.2).1 hall⟩
    · rintro ⟨htime, hall⟩
      exact ⟨⟨hevent, hduration.2 htime⟩, (ih hrest (hnext htime) hkeeps.2).2 hall⟩

end Gateway.SileroVad

namespace Vad

section

variable [LE P] [LT P] [DecidableLE P] [DecidableLT P] {cfg : SileroVadConfig P}
  {model : SileroModel S F H P}

/-- If no failure changes the context, the two are the same just when every silent window of the
speech ends it, and the speech is within 32 bits. -/
theorem same_iff (hcfg : cfg.Fits) {windows : List (List S)}
    (hlength : ∀ window ∈ windows, window.length = kWindow)
    (hkeeps : (VadSdk.SileroVad.init model).Throughout cfg model
      (VadSdk.SileroVad.FailureKeepsContext model) windows) :
    cfg.Same model windows ↔
      (VadSdk.SileroVad.init model).Throughout cfg model
        (VadSdk.SileroVad.WindowInTime cfg model) windows :=
  Gateway.SileroVad.tracks_init.forall₂_iff hcfg hlength hkeeps

end

/-- A model for windows of one value, which fails on twos, and is sure of speech after them. -/
def steadyModel : SileroModel ℕ ℕ Unit ℕ where
  norm := id
  zero := 0
  zeroState := ()
  run input _ _ :=
    match input.head?, input.getLast? with
    | some 2, _ => some (100, (), ())
    | _, some 0 => some (0, (), ())
    | _, some 1 => some (100, (), ())
    | _, _ => none

/-- With the default configuration, three windows of speech and a silent one have two durations.
If the first window of speech is enough, the one after a failure is one for the port alone. -/
theorem not_same :
    ¬ (⟨50, 35, 96, 1000⟩ : SileroVadConfig ℕ).Same steadyModel
        [List.replicate kWindow 1, List.replicate kWindow 1, List.replicate kWindow 1,
          List.replicate kWindow 0] ∧
      ¬ (⟨50, 35, 32, 1000⟩ : SileroVadConfig ℕ).Same steadyModel
        [List.replicate kWindow 2, List.replicate kWindow 0] := by
  decide +kernel

/-- Two windows of speech, and a silent one that ends it. -/
theorem same_iff_speech :
    (⟨50, 35, 32, 32⟩ : SileroVadConfig ℕ).Same steadyModel
        [List.replicate kWindow 1, List.replicate kWindow 1, List.replicate kWindow 0] ↔
      (VadSdk.SileroVad.init steadyModel).Throughout ⟨50, 35, 32, 32⟩ steadyModel
        (VadSdk.SileroVad.WindowInTime ⟨50, 35, 32, 32⟩ steadyModel)
        [List.replicate kWindow 1, List.replicate kWindow 1, List.replicate kWindow 0] :=
  same_iff ⟨by decide, by decide⟩ (by simp)
    ⟨fun h => absurd h (by decide +kernel), fun h => absurd h (by decide +kernel),
      fun h => absurd h (by decide +kernel), trivial⟩

end Vad

end Yuviz
