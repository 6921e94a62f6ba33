import Mathlib
import Yuviz.Gateway.Media.AudioFrame
import Yuviz.System

/-!
# The pacing of the playback

A thread takes the frames of speech from the playback queue and sends them to FreeSWITCH,
which plays them one after the other and cannot be told to forget them. So a frame is held
back while the audio that is ahead of the caller's ear would play for more than `kLead`: that
is what the caller still hears of a response after having barged in.

The drain keeps account of this by the time at which what it has sent will have been played.
It holds as long as the queue does not run dry while there is audio left to play
(`lead_le`). For then the account is reset, and what is left is forgotten; as often as this
happens, more audio is ahead of the caller, without any limit (`exists_ahead`).
-/

namespace Yuviz.Media

/-- Where the thread is in its loop. -/
inductive PlaybackDrain.Pc
  /-- It is about to see whether it is to go on. -/
  | testing
  | popping (deadline : ℤ)
  /-- It is about to read the clock. -/
  | popped (frame : AudioFrame)
  | sleeping (frame : AudioFrame) (wakeup : ℤ)
  | sending (frame : AudioFrame)
  | returned
  deriving DecidableEq

/-- The drain with its queue, and what FreeSWITCH has of it. All times are in microseconds. -/
structure PlaybackDrain where
  now : ℤ
  queue : List AudioFrame := []
  /-- The queue is stopped. -/
  stopped : Bool := false
  running : Bool := true
  nextPlayout : ℤ
  pc : PlaybackDrain.Pc := .testing
  /-- The frames that were pushed, and those that were sent. -/
  pushed : List AudioFrame := []
  sent : List AudioFrame := []
  /-- When what was sent will have been played. -/
  playedAt : ℤ

namespace PlaybackDrain

inductive Label
  | elapse (time : ℕ)
  | push (frame : AudioFrame)
  /-- The caller has barged in. -/
  | clear
  | stop
  | stopQueue
  /-- The next step of the thread, except for the following. -/
  | loop
  /-- The frame is handed to the connection, if it is open, which may throw. -/
  | send (isOpen throws : Bool)
  deriving DecidableEq

def kLead : ℤ := 100000

def kPopTimeout : ℤ := 50000

section

variable (micros : AudioFrame → ℕ) (maxFrames : ℕ) (s : PlaybackDrain)

/-- The newest frame is the one that is dropped. -/
def push (frame : AudioFrame) : PlaybackDrain :=
  if s.stopped ∨ maxFrames ≤ s.queue.length then s
  else { s with queue := s.queue ++ [frame], pushed := s.pushed ++ [frame] }

/-- The wait for a frame ends when the queue is stopped, or at its deadline. -/
def pop (deadline : ℤ) : Option PlaybackDrain :=
  match s.queue with
  | frame :: queue => some { s with queue := queue, pc := .popped frame }
  | [] =>
    if s.stopped ∨ deadline ≤ s.now then some { s with nextPlayout := s.now, pc := .testing }
    else none

/-- The clock is read. -/
def pace (frame : AudioFrame) : PlaybackDrain :=
  let nextPlayout := max s.nextPlayout s.now
  { s with
    nextPlayout := nextPlayout
    pc := if kLead < nextPlayout - s.now then .sleeping frame (nextPlayout - kLead)
      else .sending frame }

def loop : Option PlaybackDrain :=
  match s.pc with
  | .testing =>
    some { s with pc := if s.running then .popping (s.now + kPopTimeout) else .returned }
  | .popping deadline => s.pop deadline
  | .popped frame => some (s.pace frame)
  | .sleeping frame wakeup => if wakeup ≤ s.now then some { s with pc := .sending frame } else none
  | .sending _ | .returned => none

/-- A frame without a payload marks the end of a response. -/
def send (isOpen throws : Bool) : Option PlaybackDrain :=
  match s.pc with
  | .sending frame =>
    let s' := { s with nextPlayout := s.nextPlayout + micros frame, pc := .testing }
    if frame.payload ≠ [] ∧ isOpen then
      if throws then some { s with pc := .testing }
      else some
        { s' with sent := s.sent ++ [frame], playedAt := max s.playedAt s.now + micros frame }
    else some s'
  | _ => none

def step (s : PlaybackDrain) : Label → Option PlaybackDrain
  | .elapse time => some { s with now := s.now + time }
  | .push frame => some (s.push maxFrames frame)
  | .clear => some { s with queue := [] }
  | .stop => some { s with running := false }
  | .stopQueue => if s.running then none else some { s with stopped := true }
  | .loop => s.loop
  | .send isOpen throws => s.send micros isOpen throws

end

/-- A drain that is started at a time. A frame is played for so many microseconds. -/
def system (micros : AudioFrame → ℕ) (maxFrames : ℕ) (start : ℤ) : System PlaybackDrain Label where
  init := { now := start, nextPlayout := start, playedAt := start }
  step := step micros maxFrames

/-- The frame the thread has taken from the queue. -/
def Pc.frame? : Pc → Option AudioFrame
  | popped frame | sleeping frame _ | sending frame => some frame
  | testing | popping _ | returned => none

/-- A frame is sent at most `delay` after it is due. -/
def Prompt (delay : ℕ) (s : PlaybackDrain) : Label → Prop
  | .send .. => s.now ≤ s.nextPlayout + delay
  | _ => True

/-- The account is not reset before all is played that was sent. -/
def Drained (s : PlaybackDrain) : Label → Prop
  | .loop => ∀ deadline, s.pc = .popping deadline → s.queue = [] → s.playedAt ≤ s.now
  | _ => True

/-- For how long what was sent is still played, besides the frame sent last. -/
def lead (micros : AudioFrame → ℕ) (s : PlaybackDrain) : ℤ :=
  s.playedAt - s.now - (s.sent.getLast?.elim 0 micros : ℕ)

variable {micros : AudioFrame → ℕ} {maxFrames delay : ℕ} {start : ℤ} {s s' : PlaybackDrain}
  {l : Label} {frame : AudioFrame}

/-! ### The order of the frames -/

/-- What is sent, about to be sent, and queued. -/
def frames (s : PlaybackDrain) : List AudioFrame := s.sent ++ s.pc.frame?.toList ++ s.queue

theorem frames_step (h : s.frames.Sublist s.pushed)
    (hst : (system micros maxFrames start).step s l = some s') : s'.frames.Sublist s'.pushed := by
  cases l with
  | elapse | stop => exact Option.some.inj hst ▸ h
  | stopQueue =>
    simp only [system, step] at hst
    split_ifs at hst
    exact Option.some.inj hst ▸ h
  | clear =>
    obtain rfl := Option.some.inj hst
    refine List.Sublist.trans ?_ h
    exact List.Sublist.append (List.Sublist.refl _) (List.nil_sublist _)
  | push frame =>
    obtain rfl := Option.some.inj hst
    rw [push]
    split_ifs
    · exact h
    · simp only [frames, ← List.append_assoc] at h ⊢
      exact h.append (List.Sublist.refl _)
  | loop =>
    simp only [system, step, loop] at hst
    split at hst
    · rename_i hpc
      obtain rfl := Option.some.inj hst
      rw [frames, hpc] at h
      simp only [frames]
      split_ifs <;> exact h
    · rename_i deadline hpc
      rw [frames, hpc] at h
      rw [pop] at hst
      split at hst
      · rename_i frame queue hqueue
        obtain rfl := Option.some.inj hst
        rw [hqueue] at h
        simpa [frames, Pc.frame?] using h
      · split_ifs at hst
        obtain rfl := Option.some.inj hst
        exact h
    · rename_i frame hpc
      obtain rfl := Option.some.inj hst
      rw [frames, hpc] at h
      simp only [pace, frames]
      split_ifs <;> exact h
    · rename_i frame wakeup hpc
      split_ifs at hst
      obtain rfl := Option.some.inj hst
      rw [frames, hpc] at h
      exact h
    · cases hst
    · cases hst
  | send isOpen throws =>
    simp only [system, step, send] at hst
    split at hst
    · rename_i frame hpc
      rw [frames, hpc] at h
      have hdrop : (s.sent ++ s.queue).Sublist s.pushed :=
        (List.Sublist.append (List.sublist_append_left _ _) (List.Sublist.refl _)).trans h
      split_ifs at hst
      · obtain rfl := Option.some.inj hst
        simpa [frames, Pc.frame?] using hdrop
      · obtain rfl := Option.some.inj hst
        simpa [frames, Pc.frame?] using h
      · obtain rfl := Option.some.inj hst
        simpa [frames, Pc.frame?] using hdrop
    · cases hst

/-- The frames are sent in the order they were pushed in, and none twice. -/
theorem sent_sublist (hs : (system micros maxFrames start).Reachable s) :
    s.sent.Sublist s.pushed := by
  have hframes : s.frames.Sublist s.pushed :=
    hs.invariant (I := fun s => s.frames.Sublist s.pushed) (List.Sublist.refl _)
      fun _ _ _ h hst => frames_step h hst
  refine List.Sublist.trans ?_ hframes
  rw [frames, List.append_assoc]
  exact List.sublist_append_left _ _

/-! ### The account -/

/-- What the thread knows of what is still to be played. -/
structure Account (micros : AudioFrame → ℕ) (delay : ℕ) (s : PlaybackDrain) : Prop where
  played : s.playedAt ≤ max s.nextPlayout s.now + delay
  sleeping : ∀ frame wakeup, s.pc = .sleeping frame wakeup →
    s.playedAt ≤ s.nextPlayout + delay ∧ s.nextPlayout - kLead = wakeup
  sending : ∀ frame, s.pc = .sending frame →
    s.playedAt ≤ s.nextPlayout + delay ∧ s.nextPlayout - kLead ≤ s.now
  lead : s.lead micros ≤ kLead + delay

theorem Account.elapse (h : Account micros delay s) (time : ℕ) :
    Account micros delay { s with now := s.now + time } where
  played := by
    have := h.played
    dsimp only
    omega
  sleeping := h.sleeping
  sending frame hpc := by
    obtain ⟨hplayed, hdue⟩ := h.sending frame hpc
    exact ⟨hplayed, by dsimp only; omega⟩
  lead := by
    have := h.lead
    simp only [PlaybackDrain.lead] at this ⊢
    omega

/-- The thread moves on to where it has nothing to know of the account. -/
theorem Account.move (h : Account micros delay s) (hnow : s'.now = s.now)
    (hnext : s'.nextPlayout = s.nextPlayout) (hplayed : s'.playedAt = s.playedAt)
    (hsent : s'.sent = s.sent) (hpc : s'.pc = s.pc ∨ ∀ frame wakeup,
      s'.pc ≠ .sleeping frame wakeup ∧ s'.pc ≠ .sending frame) : Account micros delay s' := by
  refine ⟨?_, fun frame wakeup h' => ?_, fun frame h' => ?_, ?_⟩
  · rw [hnow, hnext, hplayed]
    exact h.played
  · rcases hpc with hpc | hpc
    · rw [hnext, hplayed]
      exact h.sleeping frame wakeup (hpc ▸ h')
    · exact absurd h' (hpc frame wakeup).1
  · rcases hpc with hpc | hpc
    · rw [hnow, hnext, hplayed]
      exact h.sending frame (hpc ▸ h')
    · exact absurd h' (hpc frame 0).2
  · rw [PlaybackDrain.lead, hnow, hplayed, hsent]
    exact h.lead

theorem Account.pace (h : Account micros delay s) (frame : AudioFrame) :
    Account micros delay (s.pace frame) := by
  have hplayed := h.played
  refine ⟨?_, fun frame' wakeup hpc => ?_, fun frame' hpc => ?_, h.lead⟩
  · simp only [PlaybackDrain.pace]
    omega
  · simp only [PlaybackDrain.pace] at hpc ⊢
    split_ifs at hpc
    cases hpc
    exact ⟨hplayed, rfl⟩
  · simp only [PlaybackDrain.pace] at hpc ⊢
    split_ifs at hpc with hlead
    exact ⟨hplayed, by omega⟩

theorem Account.loop (h : Account micros delay s) (hdrained : s.Drained .loop)
    (hst : s.loop = some s') : Account micros delay s' := by
  unfold PlaybackDrain.loop at hst
  split at hst
  · obtain rfl := Option.some.inj hst
    exact h.move rfl rfl rfl rfl (.inr fun _ _ => by split_ifs <;> simp)
  · rename_i deadline hpc
    rw [pop] at hst
    split at hst
    · obtain rfl := Option.some.inj hst
      exact h.move rfl rfl rfl rfl (.inr (by simp))
    · rename_i hqueue
      split_ifs at hst
      obtain rfl := Option.some.inj hst
      have hplayed := hdrained deadline hpc hqueue
      refine ⟨?_, by simp, by simp, h.lead⟩
      dsimp only
      omega
  · obtain rfl := Option.some.inj hst
    exact h.pace _
  · rename_i frame wakeup hpc
    split_ifs at hst with hwake
    obtain rfl := Option.some.inj hst
    obtain ⟨hplayed, hwakeup⟩ := h.sleeping frame wakeup hpc
    refine ⟨h.played, by simp, fun _ _ => ⟨hplayed, ?_⟩, h.lead⟩
    dsimp only
    omega
  · cases hst
  · cases hst

theorem Account.send (h : Account micros delay s) {isOpen throws : Bool}
    (hprompt : s.now ≤ s.nextPlayout + delay) (hst : s.send micros isOpen throws = some s') :
    Account micros delay s' := by
  unfold PlaybackDrain.send at hst
  split at hst
  · rename_i frame hpc
    obtain ⟨hplayed, hdue⟩ := h.sending frame hpc
    split_ifs at hst
    · obtain rfl := Option.some.inj hst
      exact h.move rfl rfl rfl rfl (.inr (by simp))
    · obtain rfl := Option.some.inj hst
      refine ⟨?_, by simp, by simp, ?_⟩
      · dsimp only
        omega
      · simp only [PlaybackDrain.lead, List.getLast?_concat, Option.elim_some]
        omega
    · obtain rfl := Option.some.inj hst
      refine ⟨?_, by simp, by simp, h.lead⟩
      dsimp only
      omega
  · cases hst

/-- What is ahead of the caller's ear, besides the frame sent last, is at most `kLead`. -/
theorem lead_le (hs : (system micros maxFrames start).ReachableIf
    (fun s l => s.Prompt delay l ∧ s.Drained l) s) : s.lead micros ≤ kLead + delay := by
  have haccount : Account micros delay s := by
    refine hs.invariant (I := Account micros delay) ⟨?_, by simp [system], by simp [system], ?_⟩ ?_
    · simp [system]
    · simp [system, PlaybackDrain.lead, kLead]
      omega
    · rintro s l s' h ⟨hprompt, hdrained⟩ hst
      cases l with
      | elapse time => exact Option.some.inj hst ▸ h.elapse time
      | push frame =>
        obtain rfl := Option.some.inj hst
        rw [push]
        split_ifs
        · exact h
        · exact h.move rfl rfl rfl rfl (.inl rfl)
      | clear | stop => exact Option.some.inj hst ▸ h.move rfl rfl rfl rfl (.inl rfl)
      | stopQueue =>
        simp only [system, step] at hst
        split_ifs at hst
        exact Option.some.inj hst ▸ h.move rfl rfl rfl rfl (.inl rfl)
      | loop => exact h.loop hdrained hst
      | send isOpen throws => exact h.send hprompt hst
  exact haccount.lead

/-! ### The reset -/

/-- The thread has nothing to do. -/
structure Waits (s : PlaybackDrain) : Prop where
  queue : s.queue = []
  stopped : s.stopped = false
  running : s.running = true
  pc : s.pc = .testing

theorem exists_send (frame : AudioFrame)
    (hs : (system micros maxFrames start).ReachableIf (Prompt 0) s) (hw : s.Waits)
    (hmax : 0 < maxFrames) (hpayload : frame.payload ≠ []) (hnow : s.now ≤ s.nextPlayout)
    (hlead : s.nextPlayout - s.now ≤ kLead) :
    ∃ s', (system micros maxFrames start).ReachableIf (Prompt 0) s' ∧ s'.Waits ∧
      s'.now = s.now ∧ s'.nextPlayout = s.nextPlayout + micros frame ∧
      s'.playedAt = max s.playedAt s.now + micros frame := by
  obtain ⟨hqueue, hstopped, hrunning, hpc⟩ := hw
  let t := { s with queue := [frame], pushed := s.pushed ++ [frame] }
  have hpush : (system micros maxFrames start).ReachableIf (Prompt 0) t := by
    refine hs.step (l := .push frame) trivial ?_
    simp [system, step, push, hstopped, hqueue, hmax.ne', t]
  have hpopping : (system micros maxFrames start).ReachableIf (Prompt 0)
      { t with pc := .popping (s.now + kPopTimeout) } := by
    refine hpush.step (l := .loop) trivial ?_
    simp [system, step, loop, hpc, hrunning, t]
  have hpopped : (system micros maxFrames start).ReachableIf (Prompt 0)
      { t with queue := [], pc := .popped frame } := hpopping.step (l := .loop) trivial rfl
  have hsending : (system micros maxFrames start).ReachableIf (Prompt 0)
      { t with queue := [], pc := .sending frame } := by
    refine hpopped.step (l := .loop) trivial ?_
    simp [system, step, loop, pace, max_eq_left hnow, not_lt.2 hlead, t]
  refine ⟨{ t with
      queue := [], pc := .testing, nextPlayout := s.nextPlayout + micros frame,
      sent := s.sent ++ [frame], playedAt := max s.playedAt s.now + micros frame },
    hsending.step (l := .send true false) ?_ ?_, ⟨rfl, hstopped, hrunning, rfl⟩, rfl, rfl, rfl⟩
  · simpa [Prompt] using hnow
  · simp [system, step, send, hpayload, t]

/-- The queue stays empty until the wait is over. -/
theorem exists_reset (hs : (system micros maxFrames start).ReachableIf (Prompt 0) s)
    (hw : s.Waits) :
    ∃ s', (system micros maxFrames start).ReachableIf (Prompt 0) s' ∧ s'.Waits ∧
      s'.now = s.now + kPopTimeout ∧ s'.nextPlayout = s'.now ∧ s'.playedAt = s.playedAt := by
  obtain ⟨hqueue, hstopped, hrunning, hpc⟩ := hw
  have hpopping : (system micros maxFrames start).ReachableIf (Prompt 0)
      { s with pc := .popping (s.now + kPopTimeout) } := by
    refine hs.step (l := .loop) trivial ?_
    simp [system, step, loop, hpc, hrunning]
  have helapse : (system micros maxFrames start).ReachableIf (Prompt 0)
      { s with now := s.now + kPopTimeout, pc := .popping (s.now + kPopTimeout) } :=
    hpopping.step (l := .elapse 50000) trivial rfl
  refine ⟨{ s with
      now := s.now + kPopTimeout, nextPlayout := s.now + kPopTimeout, pc := .testing },
    helapse.step (l := .loop) trivial ?_, ⟨hqueue, hstopped, hrunning, rfl⟩, rfl, rfl, rfl⟩
  simp [system, step, loop, pop, hqueue]

/-- Three frames of 20 ms are sent at once, and none follows for 50 ms: the audio ahead grows by
    10 ms each time. -/
theorem exists_ahead (hmax : 0 < maxFrames) (hpayload : frame.payload ≠ [])
    (hmicros : micros frame = 20000) (n : ℕ) :
    ∃ s, (system micros maxFrames start).ReachableIf (Prompt 0) s ∧ s.Waits ∧
      s.nextPlayout = s.now ∧ s.now + 10000 * n ≤ s.playedAt := by
  induction n with
  | zero => exact ⟨_, .init, ⟨rfl, rfl, rfl, rfl⟩, rfl, by simp [system]⟩
  | succ n ih =>
    obtain ⟨s, hs, hw, hnext, hahead⟩ := ih
    have hlead : kLead = 100000 := rfl
    have htimeout : kPopTimeout = 50000 := rfl
    obtain ⟨s₁, hs₁, hw₁, hnow₁, hnext₁, hplayed₁⟩ :=
      exists_send frame hs hw hmax hpayload (by omega) (by omega)
    obtain ⟨s₂, hs₂, hw₂, hnow₂, hnext₂, hplayed₂⟩ :=
      exists_send frame hs₁ hw₁ hmax hpayload (by omega) (by omega)
    obtain ⟨s₃, hs₃, hw₃, hnow₃, -, hplayed₃⟩ :=
      exists_send frame hs₂ hw₂ hmax hpayload (by omega) (by omega)
    obtain ⟨s₄, hs₄, hw₄, hnow₄, hnext₄, hplayed₄⟩ := exists_reset hs₃ hw₃
    refine ⟨s₄, hs₄, hw₄, hnext₄, ?_⟩
    push_cast
    omega

/-- The pacing bounds what the caller still hears after having barged in, as long as the queue
    does not run dry while there is audio to play; otherwise nothing does, even if each frame is
    sent on time. -/
theorem paced (frame : AudioFrame) (hmax : 0 < maxFrames) (hpayload : frame.payload ≠ [])
    (hmicros : micros frame = 20000) :
    (∀ s, (system micros maxFrames start).Reachable s → s.sent.Sublist s.pushed) ∧
    (∀ delay s, (system micros maxFrames start).ReachableIf
        (fun s l => s.Prompt delay l ∧ s.Drained l) s → s.lead micros ≤ kLead + delay) ∧
    ∀ bound : ℤ, ∃ s, (system micros maxFrames start).ReachableIf (Prompt 0) s ∧
      bound ≤ s.playedAt - s.now := by
  refine ⟨fun s => sent_sublist, fun delay s => lead_le, fun bound => ?_⟩
  obtain ⟨s, hs, -, -, hahead⟩ := exists_ahead hmax hpayload hmicros bound.toNat
  exact ⟨s, hs, by omega⟩

/-- Audio of one channel, at 16 kHz. -/
def wideband (frame : AudioFrame) : ℕ := frame.payload.length / 2 * 1000000 / 16000

theorem paced_wideband :
    (∀ s, (system wideband 3000 0).Reachable s → s.sent.Sublist s.pushed) ∧
    (∀ delay s, (system wideband 3000 0).ReachableIf
        (fun s l => s.Prompt delay l ∧ s.Drained l) s → s.lead wideband ≤ kLead + delay) ∧
    ∀ bound : ℤ, ∃ s, (system wideband 3000 0).ReachableIf (Prompt 0) s ∧
      bound ≤ s.playedAt - s.now :=
  paced { payload := List.replicate 640 0 } (by decide) (List.cons_ne_nil _ _)
    (by rw [wideband, List.length_replicate])

end PlaybackDrain

end Yuviz.Media
