import Mathlib.Data.List.Basic
import Yuviz.System

/-!
# The playback of a media session

Three threads share the queue of frames to be played and two flags: the reader
pushes the frames of the responses (`push_outbound`), the drain takes them out,
and the control thread cancels (`cancel_playback`). Every step of the system is
one access to a flag, or one section under the lock of the queue.

The drain reports the end of a response when it has emptied the queue and finds
the flag of the final frame up. The flag goes up before the frame is queued, so
that a frame that is rejected still ends its response; but a drain that has
emptied the queue before then takes the flag for its own. With the reader, the
drain and the cancels in order (`Orderly`), a response is reported exactly once,
after its final frame, unless it was cancelled (`reachable_exact`).

The responses are numbered; with the flag comes the response that raised it,
which is not read.
-/

namespace Yuviz.Gateway

/-- A frame of speech. -/
structure PlaybackFrame where
  response : ℕ
  isFinal : Bool
  deriving DecidableEq

/-- Where the reader is in `push_outbound`. -/
inductive PushPc
  | idle
  /-- The playback is marked as active. -/
  | active (isFinal : Bool)
  /-- The flag of the final frame is up, and the frame is to be pushed. -/
  | flagged
  deriving DecidableEq

/-- Where the drain is in `pop`. -/
inductive PopPc
  | idle
  /-- The queue was emptied, and its callback is to be run. -/
  | emptied
  /-- The flag of the response was found up, and taken down. -/
  | exchanged (response : ℕ)
  /-- The playback is marked as inactive, and the end of the response to be reported. -/
  | finishing (response : ℕ)
  deriving DecidableEq

/-- The response whose end the drain is about to report. -/
def PopPc.reporting : PopPc → Option ℕ
  | .exchanged n | .finishing n => some n
  | _ => none

/-- Where the control thread is in `cancel_playback`. -/
inductive CancelPc
  | idle
  | inactive
  /-- The flag is taken down, and the queue to be cleared. -/
  | reset
  /-- The queue is cleared, and the cancel to be reported. -/
  | cleared
  deriving DecidableEq

structure Playback where
  playbackActive : Bool := false
  finalQueued : Option ℕ := none
  queue : List PlaybackFrame := []
  pushPc : PushPc := .idle
  popPc : PopPc := .idle
  cancelPc : CancelPc := .idle
  /-- The response whose frames are being pushed, and whether one was. -/
  response : ℕ := 0
  begun : Bool := false
  /-- The responses whose end was reported, -/
  finished : List ℕ := []
  /-- those that had begun and were not finished when the queue was last cleared, -/
  cancelled : List ℕ := []
  /-- and those whose final frame was popped, or rejected. -/
  settled : List ℕ := []

namespace Playback

inductive Label
  /-- `push_outbound` is called, and marks the playback as active. -/
  | pushOutbound (isFinal : Bool)
  | flag
  | push
  | pop
  /-- The callback of the emptied queue exchanges the flag, -/
  | exchange
  /-- marks the playback as inactive, -/
  | deactivate
  /-- and reports the end of the response. -/
  | finish
  /-- `cancel_playback` is called, and marks the playback as inactive. -/
  | cancelPlayback
  | reset
  | clear
  | reportCancel
  deriving DecidableEq

/-- The responses with a frame pushed, or to be pushed. -/
def started (s : Playback) : List ℕ := List.range (if s.begun then s.response + 1 else s.response)

/-- `PlaybackQueue::push`, by the reader. -/
def push (maxFrames : ℕ) (isFinal : Bool) (s : Playback) : Playback :=
  let s' :=
    if s.queue.length ≥ maxFrames then
      { s with settled := if isFinal then s.settled ++ [s.response] else s.settled }
    else { s with queue := s.queue ++ [⟨s.response, isFinal⟩] }
  if isFinal then { s' with pushPc := .idle, response := s.response + 1, begun := false }
  else { s' with pushPc := .idle }

/-- `PlaybackQueue::pop`, by the drain. -/
def pop (frame : PlaybackFrame) (rest : List PlaybackFrame) (s : Playback) : Playback :=
  { s with
    queue := rest
    popPc := if rest = [] then .emptied else .idle
    settled := if frame.isFinal then s.settled ++ [frame.response] else s.settled }

def step (maxFrames : ℕ) (s : Playback) : Label → Option Playback
  | .pushOutbound isFinal =>
    if s.pushPc = .idle then
      some { s with playbackActive := true, pushPc := .active isFinal, begun := true }
    else none
  | .flag =>
    if s.pushPc = .active true then
      some { s with finalQueued := some s.response, pushPc := .flagged }
    else none
  | .push =>
    match s.pushPc with
    | .active false => some (s.push maxFrames false)
    | .flagged => some (s.push maxFrames true)
    | _ => none
  | .pop =>
    match s.popPc, s.queue with
    | .idle, frame :: rest => some (s.pop frame rest)
    | _, _ => none
  | .exchange =>
    match s.popPc, s.finalQueued with
    | .emptied, none => some { s with popPc := .idle }
    | .emptied, some n => some { s with popPc := .exchanged n, finalQueued := none }
    | _, _ => none
  | .deactivate =>
    match s.popPc with
    | .exchanged n => some { s with popPc := .finishing n, playbackActive := false }
    | _ => none
  | .finish =>
    match s.popPc with
    | .finishing n => some { s with popPc := .idle, finished := s.finished ++ [n] }
    | _ => none
  | .cancelPlayback =>
    if s.cancelPc = .idle then some { s with playbackActive := false, cancelPc := .inactive }
    else none
  | .reset =>
    if s.cancelPc = .inactive then some { s with finalQueued := none, cancelPc := .reset }
    else none
  | .clear =>
    if s.cancelPc = .reset then
      some { s with
        queue := [], cancelPc := .cleared
        cancelled := s.started.filter fun n => n ∉ s.finished }
    else none
  | .reportCancel => if s.cancelPc = .cleared then some { s with cancelPc := .idle } else none

def system (maxFrames : ℕ) : System Playback Label where
  init := {}
  step := step maxFrames

/-- The threads are in order:
    * the flag for a final frame is raised by a response that was not cancelled, after
      the end of the last one was taken note of, and not between the drain emptying
      the queue and its callback; and frames can be queued at all;
    * the queue is not emptied between the flag and the frame it is for;
    * no end of a response comes up in the course of a cancel. -/
def Orderly (maxFrames : ℕ) (s : Playback) : Label → Prop
  | .flag => 0 < maxFrames ∧ s.finalQueued = none ∧ s.popPc ≠ .emptied ∧ s.response ∉ s.cancelled
  | .pop => s.pushPc = .flagged → s.finalQueued ≠ none → s.queue.length ≠ 1
  | .clear => s.finalQueued = none ∧ s.popPc.reporting = none
  | _ => True

variable {maxFrames : ℕ} {s s' : Playback} {l : Label} {n : ℕ}

/-- The final frame of the response `n`, whose flag is up, is to be pushed, or
    queued, or was popped or rejected and the queue is yet to be found empty. -/
def Awaited (s : Playback) (n : ℕ) : Prop :=
  (s.pushPc = .flagged ∧ n = s.response ∧ s.popPc ≠ .emptied) ∨
  (n < s.response ∧ ⟨n, true⟩ ∈ s.queue ∧ s.popPc ≠ .emptied) ∨
  (n < s.response ∧ n ∈ s.settled ∧ (s.queue ≠ [] ∨ s.popPc = .emptied))

/-- The final frame of the response was offered, and its flag raised. -/
def Offered (s : Playback) (n : ℕ) : Prop :=
  n < s.response ∨ n = s.response ∧ s.pushPc = .flagged

/-- What is known of the responses. -/
structure Exact (maxFrames : ℕ) (s : Playback) : Prop where
  nodup : s.finished.Nodup
  finished : ∀ n ∈ s.finished, n ∈ s.settled ∧ n ∉ s.cancelled ∧ n < s.response
  /-- The flag is up for a response that goes on. -/
  flagged : ∀ n ∈ s.finalQueued,
    0 < maxFrames ∧ n ∉ s.finished ∧ n ∉ s.cancelled ∧ s.popPc.reporting ≠ some n ∧ s.Awaited n
  reporting : ∀ n ∈ s.popPc.reporting,
    n ∉ s.finished ∧ n ∉ s.cancelled ∧ n ∈ s.settled ∧ n < s.response
  /-- No response is forgotten. -/
  complete : ∀ n, s.Offered n → n ∈ s.cancelled ∨ n ∈ s.finished ∨ n ∈ s.finalQueued ∨
    n ∈ s.popPc.reporting ∨ s.cancelPc = .reset
  begun : s.pushPc ≠ .idle → s.begun = true

theorem exact_init : Exact maxFrames (system maxFrames).init := by
  refine ⟨List.nodup_nil, nofun, nofun, nofun, ?_, ?_⟩
  · rintro n (hn | ⟨-, hn⟩)
    · cases hn
    · cases hn
  · exact fun h => absurd rfl h

/-- What the reader and the canceller do besides the flag and the queue. -/
theorem Exact.congr (h : Exact maxFrames s) (hf : s'.finished = s.finished)
    (hc : s'.cancelled = s.cancelled) (hs : s'.settled = s.settled) (hr : s'.response = s.response)
    (hq : s'.finalQueued = s.finalQueued) (hqueue : s'.queue = s.queue) (hpop : s'.popPc = s.popPc)
    (hpush : s'.pushPc = .flagged ↔ s.pushPc = .flagged)
    (hcancel : s.cancelPc = .reset → s'.cancelPc = .reset)
    (hb : s'.pushPc ≠ .idle → s'.begun = true) : Exact maxFrames s' := by
  refine ⟨?_, ?_, ?_, ?_, ?_, hb⟩
  · rw [hf]
    exact h.nodup
  · rw [hf, hc, hs, hr]
    exact h.finished
  · simp only [Awaited, hf, hc, hs, hr, hq, hqueue, hpop, hpush]
    exact h.flagged
  · rw [hf, hc, hs, hr, hpop]
    exact h.reporting
  · simp only [Offered, hr, hpush, hf, hc, hq, hpop]
    intro n hn
    rcases h.complete n hn with hn | hn | hn | hn | hn
    · exact .inl hn
    · exact .inr (.inl hn)
    · exact .inr (.inr (.inl hn))
    · exact .inr (.inr (.inr (.inl hn)))
    · exact .inr (.inr (.inr (.inr (hcancel hn))))

/-- The flag for a final frame goes up. -/
theorem Exact.flag (h : Exact maxFrames s) (hg : Orderly maxFrames s .flag)
    (hactive : s.pushPc = .active true) :
    Exact maxFrames { s with finalQueued := some s.response, pushPc := .flagged } := by
  obtain ⟨hm, hnone, hemptied, hcancelled⟩ := hg
  have hfin : s.response ∉ s.finished := fun hn => absurd (h.finished _ hn).2.2 (Nat.lt_irrefl _)
  have hrep : s.popPc.reporting ≠ some s.response :=
    fun hn => absurd (h.reporting _ hn).2.2.2 (Nat.lt_irrefl _)
  refine ⟨h.nodup, h.finished, fun n hn => ?_, h.reporting, fun n hn => ?_, fun _ => ?_⟩
  · obtain rfl := Option.some.inj hn
    exact ⟨hm, hfin, hcancelled, hrep, .inl ⟨rfl, rfl, hemptied⟩⟩
  · rcases hn with hn | ⟨hn, -⟩
    · rcases h.complete n (.inl hn) with hn | hn | hn | hn | hn
      · exact .inl hn
      · exact .inr (.inl hn)
      · rw [hnone] at hn
        cases hn
      · exact .inr (.inr (.inr (.inl hn)))
      · exact .inr (.inr (.inr (.inr hn)))
    · rw [hn]
      exact .inr (.inr (.inl rfl))
  · refine h.begun ?_
    rw [hactive]
    nofun

/-- A frame that does not end its response is pushed. -/
theorem Exact.push (h : Exact maxFrames s) (hactive : s.pushPc = .active false) :
    Exact maxFrames (s.push maxFrames false) := by
  have hoff : ∀ n, n < s.response ∨ n = s.response ∧ PushPc.idle = .flagged → s.Offered n := by
    rintro n (hn | ⟨-, hn⟩)
    · exact .inl hn
    · cases hn
  simp only [Playback.push, Bool.false_eq_true, if_false]
  split_ifs
  · refine ⟨h.nodup, h.finished, fun n hn => ?_, h.reporting, fun n hn => h.complete n (hoff n hn),
      fun hp => absurd rfl hp⟩
    obtain ⟨hm, hf, hc, hr, ⟨hp, -⟩ | ha⟩ := h.flagged n hn
    · rw [hactive] at hp
      cases hp
    · exact ⟨hm, hf, hc, hr, .inr ha⟩
  · refine ⟨h.nodup, h.finished, fun n hn => ?_, h.reporting, fun n hn => h.complete n (hoff n hn),
      fun hp => absurd rfl hp⟩
    obtain ⟨hm, hf, hc, hr, ⟨hp, -⟩ | ⟨hn, hq, hp⟩ | ⟨hn, hs, -⟩⟩ := h.flagged n hn
    · rw [hactive] at hp
      cases hp
    · exact ⟨hm, hf, hc, hr, .inr (.inl ⟨hn, List.mem_append_left _ hq, hp⟩)⟩
    · exact ⟨hm, hf, hc, hr, .inr (.inr ⟨hn, hs, .inl (by simp)⟩)⟩

/-- The final frame of a response is pushed; if it is rejected, the queue is not empty. -/
theorem Exact.push_final (h : Exact maxFrames s) (hflagged : s.pushPc = .flagged) :
    Exact maxFrames (s.push maxFrames true) := by
  have hoff : ∀ n, n < s.response + 1 ∨ n = s.response + 1 ∧ PushPc.idle = .flagged →
      s.Offered n := by
    rintro n (hn | ⟨-, hn⟩)
    · rcases Nat.lt_succ_iff_lt_or_eq.1 hn with hn | hn
      · exact .inl hn
      · exact .inr ⟨hn, hflagged⟩
    · cases hn
  simp only [Playback.push, if_true]
  split_ifs with hfull
  · refine ⟨h.nodup, fun n hn => ?_, fun n hn => ?_, fun n hn => ?_,
      fun n hn => h.complete n (hoff n hn), fun hp => absurd rfl hp⟩
    · obtain ⟨hs, hc, hlt⟩ := h.finished n hn
      exact ⟨List.mem_append_left _ hs, hc, Nat.lt_succ_of_lt hlt⟩
    · obtain ⟨hm, hf, hc, hr, ha⟩ := h.flagged n hn
      have hq : s.queue ≠ [] := by
        rw [← List.length_pos_iff]
        exact Nat.lt_of_lt_of_le hm hfull
      refine ⟨hm, hf, hc, hr, ?_⟩
      rcases ha with ⟨-, rfl, -⟩ | ⟨hn, hmem, hp⟩ | ⟨hn, hs, -⟩
      · exact .inr (.inr ⟨Nat.lt_succ_self _, List.mem_append_right _ (List.mem_singleton_self _),
          .inl hq⟩)
      · exact .inr (.inl ⟨Nat.lt_succ_of_lt hn, hmem, hp⟩)
      · exact .inr (.inr ⟨Nat.lt_succ_of_lt hn, List.mem_append_left _ hs, .inl hq⟩)
    · obtain ⟨hf, hc, hs, hlt⟩ := h.reporting n hn
      exact ⟨hf, hc, List.mem_append_left _ hs, Nat.lt_succ_of_lt hlt⟩
  · refine ⟨h.nodup, fun n hn => ?_, fun n hn => ?_, fun n hn => ?_,
      fun n hn => h.complete n (hoff n hn), fun hp => absurd rfl hp⟩
    · obtain ⟨hs, hc, hlt⟩ := h.finished n hn
      exact ⟨hs, hc, Nat.lt_succ_of_lt hlt⟩
    · obtain ⟨hm, hf, hc, hr, ha⟩ := h.flagged n hn
      refine ⟨hm, hf, hc, hr, ?_⟩
      rcases ha with ⟨-, rfl, hp⟩ | ⟨hn, hmem, hp⟩ | ⟨hn, hs, -⟩
      · exact .inr (.inl ⟨Nat.lt_succ_self _, List.mem_append_right _ (List.mem_singleton_self _), hp⟩)
      · exact .inr (.inl ⟨Nat.lt_succ_of_lt hn, List.mem_append_left _ hmem, hp⟩)
      · exact .inr (.inr ⟨Nat.lt_succ_of_lt hn, hs, .inl (by simp)⟩)
    · obtain ⟨hf, hc, hs, hlt⟩ := h.reporting n hn
      exact ⟨hf, hc, hs, Nat.lt_succ_of_lt hlt⟩

/-- A frame is popped. -/
theorem Exact.pop (h : Exact maxFrames s) {frame : PlaybackFrame} {rest : List PlaybackFrame}
    (hg : Orderly maxFrames s .pop) (hidle : s.popPc = .idle) (hq : s.queue = frame :: rest) :
    Exact maxFrames (s.pop frame rest) := by
  have hnone : s.popPc.reporting = none := by rw [hidle]; rfl
  have hnone' : (s.pop frame rest).popPc.reporting = none := by
    rw [Playback.pop]
    dsimp only
    split_ifs <;> rfl
  have hsettled : ∀ n ∈ s.settled, n ∈ (s.pop frame rest).settled := by
    intro n hn
    rw [Playback.pop]
    dsimp only
    split_ifs
    · exact List.mem_append_left _ hn
    · exact hn
  have hempty : rest ≠ [] ∨ (s.pop frame rest).popPc = .emptied := by
    by_cases hr : rest = []
    · exact .inr (if_pos hr)
    · exact .inl hr
  refine ⟨h.nodup, fun n hn => ?_, fun n hn => ?_, fun n hn => ?_, fun n hn => ?_, h.begun⟩
  · obtain ⟨hs, hc, hlt⟩ := h.finished n hn
    exact ⟨hsettled n hs, hc, hlt⟩
  · obtain ⟨hm, hf, hc, -, ha⟩ := h.flagged n hn
    refine ⟨hm, hf, hc, by rw [hnone']; nofun, ?_⟩
    have hkeep (hr : rest ≠ []) : (s.pop frame rest).popPc ≠ .emptied := by
      have hp : (s.pop frame rest).popPc = .idle := if_neg hr
      rw [hp]
      nofun
    rcases ha with ⟨hp, hn', -⟩ | ⟨hlt, hmem, -⟩ | ⟨hlt, hs, -⟩
    · refine .inl ⟨hp, hn', hkeep ?_⟩
      rintro rfl
      have hup : s.finalQueued = some n := hn
      exact hg hp (by rw [hup]; nofun) (by rw [hq]; rfl)
    · rw [hq, List.mem_cons] at hmem
      rcases hmem with rfl | hmem
      · exact .inr (.inr ⟨hlt, List.mem_append_right _ (List.mem_singleton_self _), hempty⟩)
      · exact .inr (.inl ⟨hlt, hmem, hkeep (List.ne_nil_of_mem hmem)⟩)
    · exact .inr (.inr ⟨hlt, hsettled n hs, hempty⟩)
  · rw [hnone'] at hn
    cases hn
  · rw [hnone']
    have hcomplete := h.complete n hn
    rwa [hnone] at hcomplete

/-- The callback of the emptied queue finds the flag up. -/
theorem Exact.exchange (h : Exact maxFrames s) (hemptied : s.popPc = .emptied)
    (hq : s.finalQueued = some n) :
    Exact maxFrames { s with popPc := .exchanged n, finalQueued := none } := by
  obtain ⟨-, hf, hc, -, ha⟩ := h.flagged n hq
  have hs : n ∈ s.settled ∧ n < s.response := by
    rcases ha with ⟨-, -, hp⟩ | ⟨-, -, hp⟩ | ⟨hlt, hs, -⟩
    · exact absurd hemptied hp
    · exact absurd hemptied hp
    · exact ⟨hs, hlt⟩
  refine ⟨h.nodup, h.finished, nofun, fun m hm => ?_, fun m hm => ?_, h.begun⟩
  · obtain rfl := Option.some.inj hm
    exact ⟨hf, hc, hs⟩
  · rcases h.complete m hm with hm | hm | hm | hm | hm
    · exact .inl hm
    · exact .inr (.inl hm)
    · rw [hq] at hm
      exact .inr (.inr (.inr (.inl hm)))
    · rw [hemptied] at hm
      cases hm
    · exact .inr (.inr (.inr (.inr hm)))

/-- The end of a response is reported. -/
theorem Exact.finish (h : Exact maxFrames s) (hp : s.popPc = .finishing n) :
    Exact maxFrames { s with popPc := .idle, finished := s.finished ++ [n] } := by
  have hrep : s.popPc.reporting = some n := by rw [hp]; rfl
  obtain ⟨hf, hc, hs, hlt⟩ := h.reporting n hrep
  refine ⟨?_, fun m hm => ?_, fun m hm => ?_, nofun, fun m hm => ?_, h.begun⟩
  · refine List.nodup_append.2 ⟨h.nodup, by simp, ?_⟩
    rintro a ha b hb rfl
    exact hf (List.mem_singleton.1 hb ▸ ha)
  · rcases List.mem_append.1 hm with hm | hm
    · exact h.finished m hm
    · rw [List.mem_singleton.1 hm]
      exact ⟨hs, hc, hlt⟩
  · obtain ⟨hmax, hf, hc, hr, ha⟩ := h.flagged m hm
    refine ⟨hmax, ?_, hc, nofun, ?_⟩
    · intro hm
      rcases List.mem_append.1 hm with hm | hm
      · exact hf hm
      · rw [List.mem_singleton.1 hm] at hr
        exact hr hrep
    · simpa [Awaited, hp] using ha
  · rcases h.complete m hm with hm | hm | hm | hm | hm
    · exact .inl hm
    · exact .inr (.inl (List.mem_append_left _ hm))
    · exact .inr (.inr (.inl hm))
    · rw [hrep] at hm
      exact .inr (.inl (List.mem_append_right _ (List.mem_singleton.2 (Option.some.inj hm).symm)))
    · exact .inr (.inr (.inr (.inr hm)))

/-- The queue is cleared, which cancels what has begun. -/
theorem Exact.clear (h : Exact maxFrames s) (hg : Orderly maxFrames s .clear) :
    Exact maxFrames { s with
      queue := [], cancelPc := .cleared
      cancelled := s.started.filter fun n => n ∉ s.finished } := by
  obtain ⟨hq, hr⟩ := hg
  refine ⟨h.nodup, fun n hn => ?_, fun n hn => ?_, fun n hn => ?_, fun n hn => ?_, h.begun⟩
  · obtain ⟨hs, -, hlt⟩ := h.finished n hn
    exact ⟨hs, by simp [hn], hlt⟩
  · rw [hq] at hn
    cases hn
  · rw [hr] at hn
    cases hn
  · have hstarted : n ∈ s.started := by
      rw [started, List.mem_range]
      rcases hn with hn | ⟨rfl, hp⟩
      · split_ifs
        · exact Nat.lt_succ_of_lt hn
        · exact hn
      · rw [if_pos (h.begun (by rw [hp]; nofun))]
        exact Nat.lt_succ_self _
    by_cases hf : n ∈ s.finished
    · exact .inr (.inl hf)
    · exact .inl (List.mem_filter.2 ⟨hstarted, by simpa using hf⟩)

theorem Exact.step (h : Exact maxFrames s) (hg : Orderly maxFrames s l)
    (hst : Playback.step maxFrames s l = some s') : Exact maxFrames s' := by
  rcases l with isFinal | _ | _ | _ | _ | _ | _ | _ | _ | _ | _ <;> simp only [Playback.step] at hst
  · -- pushOutbound
    split_ifs at hst with hidle
    obtain rfl := Option.some.inj hst
    refine h.congr rfl rfl rfl rfl rfl rfl rfl ?_ id fun _ => rfl
    rw [hidle]
    exact ⟨nofun, nofun⟩
  · split_ifs at hst with hactive
    obtain rfl := Option.some.inj hst
    exact h.flag hg hactive
  · -- push
    split at hst
    · obtain rfl := Option.some.inj hst
      exact h.push ‹_›
    · obtain rfl := Option.some.inj hst
      exact h.push_final ‹_›
    · cases hst
  · split at hst
    · obtain rfl := Option.some.inj hst
      exact h.pop hg ‹_› ‹_›
    · cases hst
  · -- exchange
    split at hst
    case h_1 hp hq =>
      obtain rfl := Option.some.inj hst
      refine ⟨h.nodup, h.finished, fun n hn => ?_, nofun, fun n hn => ?_, h.begun⟩
      · rw [hq] at hn
        cases hn
      · have hcomplete := h.complete n hn
        rwa [hp] at hcomplete
    case h_2 n hp hq =>
      obtain rfl := Option.some.inj hst
      exact h.exchange hp hq
    case h_3 => cases hst
  · -- deactivate
    split at hst
    case h_1 n hp =>
      obtain rfl := Option.some.inj hst
      have hr : (PopPc.finishing n).reporting = s.popPc.reporting := by rw [hp]; rfl
      refine ⟨h.nodup, h.finished, fun m hm => ?_, ?_, ?_, h.begun⟩
      · obtain ⟨hmax, hf, hc, hr', ha⟩ := h.flagged m hm
        exact ⟨hmax, hf, hc, hr ▸ hr', by simpa [Awaited, hp] using ha⟩
      · rw [hr]
        exact h.reporting
      · rw [hr]
        exact h.complete
    case h_2 => cases hst
  · split at hst
    · obtain rfl := Option.some.inj hst
      exact h.finish ‹_›
    · cases hst
  · -- cancelPlayback
    split_ifs at hst with hidle
    obtain rfl := Option.some.inj hst
    refine h.congr rfl rfl rfl rfl rfl rfl rfl Iff.rfl ?_ h.begun
    rw [hidle]
    nofun
  · -- reset
    split_ifs at hst
    obtain rfl := Option.some.inj hst
    exact ⟨h.nodup, h.finished, nofun, h.reporting, fun _ _ => .inr (.inr (.inr (.inr rfl))), h.begun⟩
  · split_ifs at hst
    obtain rfl := Option.some.inj hst
    exact h.clear hg
  · -- reportCancel
    split_ifs at hst with hcleared
    obtain rfl := Option.some.inj hst
    refine h.congr rfl rfl rfl rfl rfl rfl rfl Iff.rfl ?_ h.begun
    rw [hcleared]
    nofun

/-! ## The drain runs on -/

/-- The step the drain takes next, until it has emptied the queue. -/
def nextDrain (s : Playback) : Option Label :=
  match s.popPc with
  | .idle => if s.queue = [] then none else some .pop
  | .emptied => some .exchange
  | .exchanged _ => some .deactivate
  | .finishing _ => some .finish

/-- The steps the drain has yet to take, at most. -/
def drainSteps (s : Playback) : ℕ :=
  4 * s.queue.length + match s.popPc with
    | .idle => 0
    | .emptied => 3
    | .exchanged _ => 2
    | .finishing _ => 1

/-- The next step of the drain is enabled and in order, unless the reader is about
    to push a final frame, and leaves the other threads alone. -/
theorem nextDrain_step (maxFrames : ℕ) (h : s.nextDrain = some l) (hp : s.pushPc = .idle) :
    ∃ s', step maxFrames s l = some s' ∧ Orderly maxFrames s l ∧ s'.drainSteps < s.drainSteps ∧
      s'.pushPc = .idle ∧ s'.cancelPc = s.cancelPc ∧ s'.response = s.response ∧
      s'.cancelled = s.cancelled := by
  rcases hpop : s.popPc with _ | _ | n | n
  · rcases hq : s.queue with _ | ⟨frame, rest⟩
    · simp [nextDrain, hpop, hq] at h
    · obtain rfl : Label.pop = l := by simpa [nextDrain, hpop, hq] using h
      refine ⟨s.pop frame rest, by simp only [step, hpop, hq], fun hf => ?_, ?_, hp, rfl, rfl, rfl⟩
      · rw [hp] at hf
        cases hf
      · simp only [drainSteps, pop, hpop, hq, List.length_cons]
        split_ifs <;> simp_all
  · obtain rfl : Label.exchange = l := by simpa [nextDrain, hpop] using h
    rcases hq : s.finalQueued with _ | n
    · refine ⟨{ s with popPc := .idle }, by simp only [step, hpop, hq], trivial, ?_, hp, rfl, rfl, rfl⟩
      simp [drainSteps, hpop]
    · refine ⟨{ s with popPc := .exchanged n, finalQueued := none },
        by simp only [step, hpop, hq], trivial, ?_, hp, rfl, rfl, rfl⟩
      simp [drainSteps, hpop]
  · obtain rfl : Label.deactivate = l := by simpa [nextDrain, hpop] using h
    refine ⟨{ s with popPc := .finishing n, playbackActive := false },
      by simp only [step, hpop], trivial, ?_, hp, rfl, rfl, rfl⟩
    simp [drainSteps, hpop]
  · obtain rfl : Label.finish = l := by simpa [nextDrain, hpop] using h
    refine ⟨{ s with popPc := .idle, finished := s.finished ++ [n] },
      by simp only [step, hpop], trivial, ?_, hp, rfl, rfl, rfl⟩
    simp [drainSteps, hpop]

/-- Let run on, the drain empties the queue. -/
theorem exists_drained (hs : (system maxFrames).ReachableIf (Orderly maxFrames) s)
    (hp : s.pushPc = .idle) :
    ∃ ls s', (system maxFrames).exec s ls = some s' ∧
      (∀ l ∈ ls, l ∈ [Label.pop, .exchange, .deactivate, .finish]) ∧
      (system maxFrames).ReachableIf (Orderly maxFrames) s' ∧ s'.nextDrain = none ∧
      s'.pushPc = .idle ∧ s'.cancelPc = s.cancelPc ∧ s'.response = s.response ∧
      s'.cancelled = s.cancelled := by
  induction hn : s.drainSteps using Nat.strongRecOn generalizing s with
  | ind k ih =>
    rcases hl : s.nextDrain with _ | l
    · exact ⟨[], s, rfl, nofun, hs, hl, hp, rfl, rfl, rfl⟩
    · obtain ⟨t, hst, hg, hlt, hpush, hcancel, hresponse, hcancelled⟩ :=
        nextDrain_step maxFrames hl hp
      obtain ⟨ls, s', hexec, hls, hs', hnone, hpush', hcancel', hresponse', hcancelled'⟩ :=
        ih _ (hn ▸ hlt) (.step hs hg hst) hpush rfl
      refine ⟨l :: ls, s', ?_, ?_, hs', hnone, hpush', hcancel'.trans hcancel,
        hresponse'.trans hresponse, hcancelled'.trans hcancelled⟩
      · rw [System.exec_cons]
        exact Option.bind_eq_some_iff.2 ⟨t, hst, hexec⟩
      · intro l' hl'
        rcases List.mem_cons.1 hl' with rfl | hl'
        · simp only [nextDrain] at hl
          split at hl
          · split_ifs at hl
            simp [← Option.some.inj hl]
          all_goals simp [← Option.some.inj hl]
        · exact hls l' hl'

/-- Once the queue is found empty, no flag is left up. -/
theorem Exact.finished_of_drained (h : Exact maxFrames s) (hd : s.nextDrain = none)
    (hp : s.pushPc = .idle) (hc : s.cancelPc = .idle) (hlt : n < s.response)
    (hn : n ∉ s.cancelled) : n ∈ s.finished := by
  have hidle : s.popPc = .idle ∧ s.queue = [] := by
    rcases hpop : s.popPc with _ | _ | m | m <;> simp [nextDrain, hpop] at hd
    exact ⟨rfl, hd⟩
  obtain ⟨hpop, hq⟩ := hidle
  rcases h.complete n (.inl hlt) with hn' | hn' | hn' | hn' | hn'
  · exact absurd hn' hn
  · exact hn'
  · obtain ⟨-, -, -, -, ha⟩ := h.flagged n hn'
    simp [Awaited, hp, hq, hpop] at ha
  · rw [hpop] at hn'
    cases hn'
  · rw [hc] at hn'
    cases hn'

theorem exact_of_orderly (hs : (system maxFrames).ReachableIf (Orderly maxFrames) s) :
    Exact maxFrames s :=
  hs.invariant (I := Exact maxFrames) exact_init fun _ _ _ h hg hst => h.step hg hst

/-- In a run with the threads in order, the end of a response is reported at most
    once, after its final frame was popped or rejected, and not if it was cancelled;
    and the ends of all others whose final frame was offered are reported once the
    drain has run on. -/
theorem reachable_exact (hs : (system maxFrames).ReachableIf (Orderly maxFrames) s) :
    s.finished.Nodup ∧ (∀ n ∈ s.finished, n ∈ s.settled ∧ n ∉ s.cancelled) ∧
    (s.pushPc = .idle → s.cancelPc = .idle → ∃ ls s', (system maxFrames).exec s ls = some s' ∧
      (∀ l ∈ ls, l ∈ [Label.pop, .exchange, .deactivate, .finish]) ∧
      s'.finished.Nodup ∧ ∀ n < s.response, n ∉ s.cancelled → n ∈ s'.finished) := by
  have h := exact_of_orderly hs
  refine ⟨h.nodup, fun n hn => ⟨(h.finished n hn).1, (h.finished n hn).2.1⟩, fun hp hc => ?_⟩
  obtain ⟨ls, s', hexec, hls, hs', hd, hp', hc', hr, hcancelled⟩ := exists_drained hs hp
  have h' := exact_of_orderly hs'
  refine ⟨ls, s', hexec, hls, h'.nodup, fun n hn hnc => ?_⟩
  exact h'.finished_of_drained hd hp' (hc'.trans hc) (hr ▸ hn) (hcancelled ▸ hnc)

instance (maxFrames : ℕ) (s : Playback) : (l : Label) → Decidable (Orderly maxFrames s l)
  | .flag => inferInstanceAs (Decidable (_ ∧ _ ∧ _ ∧ _))
  | .pop => inferInstanceAs (Decidable (_ → _ → _))
  | .clear => inferInstanceAs (Decidable (_ ∧ _))
  | .pushOutbound _ | .push | .exchange | .deactivate | .finish | .cancelPlayback | .reset
  | .reportCancel => inferInstanceAs (Decidable True)

/-- A response that is cancelled, and another that is queued. -/
private def queued : List Label :=
  [.pushOutbound true, .flag, .push, .cancelPlayback, .reset, .clear, .reportCancel,
    .pushOutbound false, .push, .pushOutbound true, .flag, .push]

/-- The response that was not cancelled is reported. -/
theorem reachable_exact_queued : ∃ s, (system 2).Reachable s ∧ s.cancelled = [0] ∧
    s.finished.Nodup ∧ ∃ ls s', (system 2).exec s ls = some s' ∧ 1 ∈ s'.finished := by
  have hexec : ((system 2).execIf (Orderly 2) (system 2).init queued).map (fun s => decide
      (s.response = 2 ∧ s.cancelled = [0] ∧ s.pushPc = .idle ∧ s.cancelPc = .idle)) =
      some true := by
    decide
  obtain ⟨s, hs, hr⟩ := Option.map_eq_some_iff.1 hexec
  have hs : (system 2).ReachableIf (Orderly 2) s := System.ReachableIf.execIf .init hs
  obtain ⟨hresponse, hcancelled, hp, hc⟩ := of_decide_eq_true hr
  obtain ⟨hnodup, -, hdrained⟩ := reachable_exact hs
  obtain ⟨ls, s', hexec', -, -, hfinished⟩ := hdrained hp hc
  refine ⟨s, hs.reachable, hcancelled, hnodup, ls, s', hexec', hfinished 1 ?_ ?_⟩
  · rw [hresponse]
    decide
  · rw [hcancelled]
    decide

/-- The drain empties the queue just before the flag for the final frame goes up,
    and reports the end of the response before that frame. -/
theorem not_reachable_exact : ¬∀ s, (system 2).Reachable s → ∀ n ∈ s.finished, n ∈ s.settled := by
  intro h
  have hexec : ((system 2).exec (system 2).init
      [.pushOutbound false, .push, .pop, .pushOutbound true, .flag, .exchange, .deactivate,
        .finish]).map (fun s => decide (s.finished = [0] ∧ s.settled = [])) = some true := by
    decide
  obtain ⟨s, hs, hr⟩ := Option.map_eq_some_iff.1 hexec
  obtain ⟨hfinished, hsettled⟩ := of_decide_eq_true hr
  have hmem := h s (System.Reachable.exec .init hs) 0 (hfinished ▸ List.mem_singleton_self 0)
  rw [hsettled] at hmem
  cases hmem

end Playback

end Yuviz.Gateway
