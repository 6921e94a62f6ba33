import Yuviz.Gateway.CallSession.Notifications

/-!
# A session over its transport

The control thread hands the messages of an item to the transport one by one,
while the writer takes them out of the send queue at its own pace, and the other
threads go on. No control message is dropped if, whenever an item is taken, its
last control message finds room behind what the queue holds and what the item
sends ahead of it (`reachable_queued`). The replay of a barge-in of 256 frames
has no room even in an empty queue.
-/

namespace Yuviz.Gateway

/-- A session with its threads, the effects of the item that the control thread
    is still to hand to the transport, and the transport. -/
structure ConnectedSession where
  threads : SessionThreads
  effects : List SessionEffect := []
  /-- `open_session` has been called. -/
  opened : Bool := false
  transport : GrpcConversationTransport := {}

namespace ConnectedSession

open CallSession GrpcConversationTransport

/-- What happens: a step of the session, the next call of the transport, a step
    of the writer, or the opening or the stop of the transport. -/
inductive Label
  | session (l : SessionThreads.Label)
  | call
  | write
  | openSession
  | stop
  deriving DecidableEq, Repr

variable (cfg : CallFsmTimerConfig) (maxFrames : ℕ)

/-- The session takes an item when it has handed over those of the item before. -/
def session (l : SessionThreads.Label) (s : ConnectedSession) : Option ConnectedSession :=
  match l with
  | .control =>
    if s.effects = [] then
      (SessionThreads.step cfg maxFrames s.threads .control).map fun t =>
        { s with
          threads := t
          effects := s.threads.queue.head?.toList.flatMap fun item =>
            (SessionThreads.processed cfg s.threads item).effects }
    else none
  | _ => (SessionThreads.step cfg maxFrames s.threads l).map fun t => { s with threads := t }

def step (s : ConnectedSession) : Label → Option ConnectedSession
  | .session l => session cfg maxFrames l s
  | .call =>
    match s.effects with
    | e :: effects => some { s with effects := effects, transport := s.transport.call e }
    | [] => none
  | .write => s.transport.write.map fun t => { s with transport := t }
  | .openSession =>
    if s.opened then none
    else some { s with opened := true, transport := s.transport.openSession }
  | .stop => some { s with transport := s.transport.closeSession }

def system (callId callerDid : String) : System ConnectedSession Label where
  init := { threads := (SessionThreads.system cfg maxFrames callId callerDid).init }
  step := step cfg maxFrames

/-- The stream has not been closed. -/
def Unclosed (s : ConnectedSession) : Prop := s.opened = true → s.transport.streamOpen = true

instance (s : ConnectedSession) : Decidable s.Unclosed := inferInstanceAs (Decidable (_ → _))

/-- The last control message of an item that is taken finds room in the queue
    behind what the item sends ahead of it. -/
def HasRoom (s : ConnectedSession) (l : Label) : Prop :=
  l = .session .control → s.Unclosed → ∀ item ∈ s.threads.queue.head?,
    Notifies s.threads.session item →
      s.transport.sendQueue.size + ahead s.threads.session item < 256

instance (s : ConnectedSession) (l : Label) : Decidable (HasRoom s l) :=
  inferInstanceAs (Decidable (_ → _ → _))

variable {cfg maxFrames} {callId callerDid : String} {s s' : ConnectedSession} {l : Label}

/-- No control message has been dropped, and those that the item is still to
    send fit into the queue. -/
structure Queued (s : ConnectedSession) : Prop where
  dropped : ∀ m ∈ s.transport.dropped, m.isControl = false
  fits : s.Unclosed → Fits (fun m : GatewayMessage => m.isControl = true) 256
    s.transport.sendQueue.size (s.effects.filterMap message?)

theorem closeSession_unclosed {t : ConnectedSession}
    (h : ({ t with transport := t.transport.closeSession } : ConnectedSession).Unclosed) :
    t.opened = false := by
  by_contra ho
  exact Bool.false_ne_true (h (by simpa using ho))

/-- The control thread takes an item. -/
theorem Queued.control (h : Queued s) (hg : HasRoom s (.session .control))
    (hst : step cfg maxFrames s (.session .control) = some s') : Queued s' := by
  simp only [step, session] at hst
  split_ifs at hst
  obtain ⟨t, ht, rfl⟩ := Option.map_eq_some_iff.1 hst
  obtain ⟨item, rest, hq, -, -⟩ := SessionThreads.control_cases ht
  have hhead : item ∈ s.threads.queue.head? := by
    rw [hq]
    rfl
  have heffects : (s.threads.queue.head?.toList.flatMap fun item =>
      (SessionThreads.processed cfg s.threads item).effects) =
      (SessionThreads.processed cfg s.threads item).effects := by
    simp [hq]
  refine ⟨h.dropped, fun hu => ?_⟩
  simp only [heffects]
  exact fits_process.2 (hg rfl hu item hhead)

/-- The control thread calls the transport. -/
theorem Queued.call {e : SessionEffect} {effects : List SessionEffect} (h : Queued s)
    (he : s.effects = e :: effects) :
    Queued { s with effects := effects, transport := s.transport.call e } := by
  have hfits := h.fits
  rw [he] at hfits
  rcases call_cases s.transport e with ⟨msg, hm, hcall⟩ | ⟨hm, hcall | hcall⟩
  · rw [List.filterMap_cons_some hm] at hfits
    rw [hcall]
    by_cases ho : s.transport.streamOpen = true
    · obtain ⟨hfirst, hrest⟩ := hfits fun _ => ho
      by_cases hlt : s.transport.sendQueue.size < 256
      · obtain ⟨q, hq, hcontents⟩ := send_of_lt msg ho hlt
        have hsize : q.size = s.transport.sendQueue.size + 1 := by
          rw [← SPSCQueue.length_contents, hcontents, List.length_append,
            SPSCQueue.length_contents, List.length_singleton]
        rw [hq]
        refine ⟨h.dropped, fun _ => ?_⟩
        simp only [hsize]
        exact hrest
      · -- only audio is dropped
        rw [send_of_full ho (not_lt.1 hlt)]
        refine ⟨fun m hm => ?_, fun _ => hrest.mono (Nat.le_succ _)⟩
        rcases List.mem_append.1 hm with hm | hm
        · exact h.dropped m hm
        · rw [List.mem_singleton.1 hm]
          exact Bool.eq_false_iff.2 fun hc => hlt (hfirst hc)
    · rw [send_of_closed (by simpa using ho)]
      exact ⟨h.dropped, fun hu => (hfits hu).2.mono (Nat.le_succ _)⟩
  · rw [List.filterMap_cons_none hm] at hfits
    rw [hcall]
    exact ⟨h.dropped, hfits⟩
  · rw [List.filterMap_cons_none hm] at hfits
    rw [hcall]
    refine ⟨h.dropped, fun hu => hfits fun ho => ?_⟩
    rw [closeSession_unclosed (t := { s with effects := effects }) hu] at ho
    cases ho

theorem Queued.step (h : Queued s) (hg : HasRoom s l)
    (hst : step cfg maxFrames s l = some s') : Queued s' := by
  rcases l with l | _ | _ | _ | _
  · by_cases hl : l = .control
    · subst hl
      exact h.control hg hst
    · have hsess : (SessionThreads.step cfg maxFrames s.threads l).map
          (fun t => { s with threads := t }) = some s' := by
        rw [← hst]
        cases l <;> first | rfl | exact absurd rfl hl
      obtain ⟨t, -, rfl⟩ := Option.map_eq_some_iff.1 hsess
      exact ⟨h.dropped, h.fits⟩
  · simp only [ConnectedSession.step] at hst
    split at hst
    · next e effects he =>
      obtain rfl := Option.some.inj hst
      exact h.call he
    · cases hst
  · obtain ⟨t, ht, rfl⟩ := Option.map_eq_some_iff.1 hst
    obtain ⟨hsize, hopen, hdropped⟩ := write_cases ht
    refine ⟨fun m hm => h.dropped m (hdropped ▸ hm), fun hu => ?_⟩
    exact (h.fits fun ho => hopen ▸ hu ho).mono hsize
  · simp only [ConnectedSession.step] at hst
    split_ifs at hst with ho
    obtain rfl := Option.some.inj hst
    refine ⟨h.dropped, fun _ => (h.fits fun ho' => absurd ho' ho).mono ?_⟩
    exact SPSCQueue.size_empty.trans_le (Nat.zero_le _)
  · obtain rfl := Option.some.inj hst
    refine ⟨h.dropped, fun hu => h.fits fun ho => ?_⟩
    rw [closeSession_unclosed hu] at ho
    cases ho

/-- In every run in which the last control message of each item finds room, only
    audio is dropped, whatever the pace of the writer. -/
theorem reachable_queued (hs : (system cfg maxFrames callId callerDid).ReachableIf HasRoom s) :
    ∀ m ∈ s.transport.dropped, m.isControl = false := by
  have hinit : Queued (system cfg maxFrames callId callerDid).init := ⟨nofun, fun _ => trivial⟩
  have h : Queued s := hs.invariant (I := Queued) hinit fun _ _ _ h hg hst => h.step hg hst
  exact h.dropped

/-- An utterance of `n` frames, while the writer does not run. -/
def utterance (n : ℕ) : List Label :=
  ([.openSession, .session .control, .session (.message .serviceReady), .session .control,
    .session (.event (.speechStarted 0)), .session .control] : List Label) ++
  ((List.range n).flatMap fun i =>
    ([.session (.event (.audioFrame ⟨i⟩)), .session .control, .call] : List Label)) ++
  ([.session (.event (.speechEnded 5120 0)), .session .control, .call] : List Label)

/-- A short utterance is queued with its end. -/
theorem reachable_queued_utterance :
    ∃ s, (system {} 100 "call" "caller").Reachable s ∧
      s.transport.sendQueue.contents = [.audioChunk 0, .audioChunk 1, .speechEnded 5120 0] ∧
      ∀ m ∈ s.transport.dropped, m.isControl = false := by
  have hexec : ((system {} 100 "call" "caller").execIf HasRoom
      (system {} 100 "call" "caller").init (utterance 2)).map
        (fun s => s.transport.sendQueue.contents) =
      some [.audioChunk 0, .audioChunk 1, .speechEnded 5120 0] := by
    decide
  obtain ⟨s, hs, hr⟩ := Option.map_eq_some_iff.1 hexec
  have hs : (system {} 100 "call" "caller").ReachableIf HasRoom s := System.ReachableIf.execIf .init hs
  exact ⟨s, hs.reachable, hr, reachable_queued hs⟩

/-- The writer stalls for the 256 frames of an utterance: its end is dropped. -/
theorem not_reachable_queued :
    ¬∀ s, (system {} 100 "call" "caller").Reachable s →
      ∀ m ∈ s.transport.dropped, m.isControl = false := by
  intro h
  have hexec : ((system {} 100 "call" "caller").exec (system {} 100 "call" "caller").init
      (utterance 256)).map (fun s => s.transport.dropped) = some [.speechEnded 5120 0] := by
    decide +kernel
  obtain ⟨s, hs, hr⟩ := Option.map_eq_some_iff.1 hexec
  have hm := h s (System.Reachable.exec .init hs) (.speechEnded 5120 0) (by simp [hr])
  cases hm

end ConnectedSession

end Yuviz.Gateway
