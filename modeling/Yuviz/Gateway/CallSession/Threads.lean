import Yuviz.Gateway.CallSession
import Yuviz.System

/-!
# A session with its threads

`SessionThreads` is a session as it runs: the control thread processes the items
of its queue, which the others post.

* The reader of the transport gets the messages of the Conversation Service. It
  pushes the frames of a chunk of speech to the playback one by one; for each it
  first raises the flags of the playback.
* The drain of the playback takes the frames out, and reports the end of the
  playback once it has emptied the queue.
* The audio worker posts the frames of the caller and the events of the VAD, and
  the timer service the timers that fire.
* The coordinators run on the control thread and on that of the ESL events.

An item is processed in one step. The methods of the coordinators that it calls
are then run step by step, before the control thread takes the next item.
-/

namespace Yuviz.Gateway

/-- A frame of the speech of the turn `turn`. -/
structure OutboundFrame where
  turn : ℕ
  isFinal : Bool
  deriving DecidableEq, Repr

/-- The playback of a session. The flag of the final frame comes with its turn,
    which is not read. -/
structure MediaSession where
  playbackActive : Bool := false
  finalQueued : Option ℕ := none
  playbackQueue : List OutboundFrame := []
  deriving DecidableEq, Repr

namespace MediaSession

/-- `push_outbound`, up to the push. -/
def raise (frame : OutboundFrame) (m : MediaSession) : MediaSession :=
  { m with
    playbackActive := true
    finalQueued := if frame.isFinal then some frame.turn else m.finalQueued }

/-- A full queue rejects the frame. -/
def push (maxFrames : ℕ) (frame : OutboundFrame) (m : MediaSession) : MediaSession :=
  if m.playbackQueue.length ≥ maxFrames then m
  else { m with playbackQueue := m.playbackQueue ++ [frame] }

def cancelPlayback (m : MediaSession) : MediaSession :=
  { m with playbackActive := false, finalQueued := none, playbackQueue := [] }

/-- The callback of the queue when it is drained. -/
def onDrained (m : MediaSession) : MediaSession :=
  if m.finalQueued = none then m
  else { m with finalQueued := none, playbackActive := false }

end MediaSession

/-- The frames of a chunk of speech: only the last one may be final. -/
def subFrames (turn more : ℕ) (isFinal : Bool) : List OutboundFrame :=
  List.replicate more ⟨turn, false⟩ ++ [⟨turn, isFinal⟩]

namespace SessionItem

/-- The items posted by the reader of the transport. -/
def isMessage : SessionItem → Bool
  | .serviceReady | .sttResult .. | .ttsStarted _ | .cancelAck | .endCall .. | .transferRequest _
  | .conversationFinalized => true
  | _ => false

/-- The items posted by the audio worker, by the timer service, and by whoever
    terminates the session. -/
def isEvent : SessionItem → Bool
  | .audioFrame _ | .speechStarted _ | .speechEnded .. | .timerFired _ | .terminate _ => true
  | _ => false

/-- The items posted by the other threads, except for the messages and for the
    outcome of a transfer. -/
def isSignal : SessionItem → Bool
  | .firstAudioChunk _ | .playbackFinished _ => true
  | item => item.isEvent

end SessionItem

/-- A session with its threads. -/
structure SessionThreads where
  session : CallSession
  queue : List SessionItem := [.sessionStart]
  media : MediaSession := {}
  /-- The frames the reader is still to push, and whether the flags have been
      raised for the first of them. -/
  incoming : List OutboundFrame := []
  raised : Bool := false
  /-- The number of turns whose speech has started, which numbers them. -/
  turns : ℕ := 0
  /-- The drain has emptied the queue of the playback, and is to report it. -/
  drained : Bool := false
  ttsFirstChunkPending : Bool := false
  coordinators : Coordinators := {}
  /-- A transfer was started on no coordinator. -/
  crashed : Bool := false

namespace SessionThreads

/-- What the threads do: receive a message, or the event of another thread; push
    a frame; take a frame out of the playback, and report that it is drained;
    process an item; or take a step in the coordinators. -/
inductive Label
  | message (item : SessionItem)
  | ttsChunk (turn more : ℕ) (isFinal : Bool)
  | push
  | event (item : SessionItem)
  | pop
  | drained
  | control
  | telephony (l : Coordinators.Label)
  deriving DecidableEq, Repr

variable (cfg : CallFsmTimerConfig) (maxFrames : ℕ)

def post (item : SessionItem) (s : SessionThreads) : SessionThreads :=
  { s with queue := s.queue ++ [item] }

/-! ## The control thread -/

/-- What an effect does to the other threads. -/
def apply (s : SessionThreads) : SessionEffect → SessionThreads
  | .cancelPlayback => { post .playbackCancelled s with media := s.media.cancelPlayback }
  | .post item => post item s
  | .startTransfer none _ => { s with crashed := true }
  | .startTransfer (some type) ctx => { s with coordinators := s.coordinators.start type ctx }
  | .shutdownTransfer type => { s with coordinators := s.coordinators.shutdown type }
  | _ => s

/-- The session after an item, with its effects. -/
def processed (s : SessionThreads) (item : SessionItem) : CallSession.Exec :=
  CallSession.process cfg s.media.playbackActive item ⟨s.session, []⟩

/-- The control thread takes an item, unless it is in a method of a coordinator. -/
def control (s : SessionThreads) : Option SessionThreads :=
  match s.queue with
  | item :: queue =>
    if s.coordinators.control = none then
      let x := processed cfg s item
      some (x.effects.foldl apply { s with session := x.session, queue := queue })
    else none
  | [] => none

/-! ## The other threads -/

/-- A message that is posted; the start of the speech of a turn also awaits its
    first chunk. -/
def message (item : SessionItem) (s : SessionThreads) : Option SessionThreads :=
  match item with
  | .ttsStarted turn =>
    if turn = s.turns + 1 then
      some { post item s with ttsFirstChunkPending := true, turns := turn }
    else none
  | _ => some (post item s)

/-- A chunk of speech; the first one of a turn is also posted. -/
def ttsChunk (turn more : ℕ) (isFinal : Bool) (s : SessionThreads) : SessionThreads :=
  let s := if s.ttsFirstChunkPending then
      { post (.firstAudioChunk turn) s with ttsFirstChunkPending := false }
    else s
  { s with incoming := subFrames turn more isFinal, raised := false }

def push (s : SessionThreads) : Option SessionThreads :=
  match s.incoming with
  | frame :: rest =>
    some (if s.raised then
      { s with media := s.media.push maxFrames frame, incoming := rest, raised := false }
    else { s with media := s.media.raise frame, raised := true })
  | [] => none

/-- The event of another thread. Frames are only taken where the machine accepts audio. -/
def event (item : SessionItem) (s : SessionThreads) : SessionThreads :=
  match item with
  | .audioFrame _ => if s.session.fsm.canAcceptAudio then post item s else s
  | _ => post item s

/-- The drain takes a frame, unless it is still to report the one before. -/
def pop (s : SessionThreads) : Option SessionThreads :=
  match s.media.playbackQueue with
  | _ :: rest =>
    if s.drained then none
    else some { s with media.playbackQueue := rest, drained := rest.isEmpty }
  | [] => none

def reportDrained (s : SessionThreads) : SessionThreads :=
  let t := { s with media := s.media.onDrained, drained := false }
  match s.media.finalQueued with
  | some turn => post (.playbackFinished turn) t
  | none => t

/-- A callback of a coordinator. -/
def callback (s : SessionThreads) : Entry → SessionThreads
  | .acted _ (.onMediaHandoff _) => { s with session.sipLegHandedOff := true }
  | .acted _ (.onTransferCompleted attempt success destination detail) =>
    post (.transferOutcome attempt success destination detail) s
  | _ => s

/-- A step in the coordinators, whose methods only the control thread calls. -/
def telephony (l : Coordinators.Label) (s : SessionThreads) : Option SessionThreads :=
  match l with
  | .control _ | .event _ | .esl _ =>
    (s.coordinators.step l).map fun c =>
      (c.log.drop s.coordinators.log.length).foldl callback { s with coordinators := c }
  | _ => none

def step (s : SessionThreads) (l : Label) : Option SessionThreads :=
  if s.crashed then none
  else match l with
    | .message item => if item.isMessage ∧ s.incoming = [] then message item s else none
    | .ttsChunk turn more isFinal =>
      if s.incoming = [] then some (ttsChunk turn more isFinal s) else none
    | .push => push maxFrames s
    | .event item => if item.isEvent then some (event item s) else none
    | .pop => pop s
    | .drained => if s.drained then some (reportDrained s) else none
    | .control => control cfg s
    | .telephony l => telephony l s

/-- The threads of the session of the call `callId` from `callerDid`. -/
def system (callId callerDid : String) : System SessionThreads Label where
  init := { session := { callId := callId, callerDid := callerDid } }
  step := step cfg maxFrames

/-! ## What a step does -/

section

variable {cfg maxFrames} {s s' : SessionThreads} {callId callerDid : String}

/-- The item an effect posts. -/
def posted : SessionEffect → Option SessionItem
  | .cancelPlayback => some .playbackCancelled
  | .post item => some item
  | _ => none

@[simp] theorem post_session (item : SessionItem) : (post item s).session = s.session := rfl
@[simp] theorem post_queue (item : SessionItem) : (post item s).queue = s.queue ++ [item] := rfl
@[simp] theorem post_turns (item : SessionItem) : (post item s).turns = s.turns := rfl
@[simp] theorem post_coordinators (item : SessionItem) :
    (post item s).coordinators = s.coordinators := rfl

/-- An effect reaches the session only through its queue. -/
theorem apply_session (e : SessionEffect) : (apply s e).session = s.session := by
  unfold apply
  split <;> rfl

theorem apply_queue (e : SessionEffect) : (apply s e).queue = s.queue ++ (posted e).toList := by
  rcases e with _ | _ | _ | _ | _ | _ | _ | _ | _ | _ | _ | _ | ⟨_ | _, _⟩ | _ <;>
    first | rfl | exact (List.append_nil _).symm

@[simp] theorem foldl_apply_session (es : List SessionEffect) :
    (es.foldl apply s).session = s.session := by
  induction es generalizing s with
  | nil => rfl
  | cons e es ih => rw [List.foldl_cons, ih, apply_session]

theorem apply_turns (e : SessionEffect) : (apply s e).turns = s.turns := by
  unfold apply
  split <;> rfl

@[simp] theorem foldl_apply_turns (es : List SessionEffect) :
    (es.foldl apply s).turns = s.turns := by
  induction es generalizing s with
  | nil => rfl
  | cons e es ih => rw [List.foldl_cons, ih, apply_turns]

@[simp] theorem foldl_apply_queue (es : List SessionEffect) :
    (es.foldl apply s).queue = s.queue ++ es.filterMap posted := by
  induction es generalizing s with
  | nil => exact (List.append_nil _).symm
  | cons e es ih =>
    rw [List.foldl_cons, ih, apply_queue, List.append_assoc]
    cases h : posted e <;> simp [h]

theorem cancelPlayback_idem (m : MediaSession) : m.cancelPlayback.cancelPlayback = m.cancelPlayback :=
  rfl

theorem foldl_apply_media (es : List SessionEffect) : (es.foldl apply s).media =
    if .cancelPlayback ∈ es then s.media.cancelPlayback else s.media := by
  induction es generalizing s with
  | nil => rfl
  | cons e es ih =>
    rw [List.foldl_cons, ih]
    by_cases he : e = .cancelPlayback
    · subst he
      simp only [apply, List.mem_cons, true_or, if_true, cancelPlayback_idem, ite_self]
    · have hm : (apply s e).media = s.media := by
        unfold apply
        split <;> first | rfl | exact absurd rfl he
      simp only [hm, List.mem_cons, Ne.symm he, false_or]

theorem foldl_apply_incoming (es : List SessionEffect) :
    (es.foldl apply s).incoming = s.incoming := by
  induction es generalizing s with
  | nil => rfl
  | cons e es ih =>
    rw [List.foldl_cons, ih]
    unfold apply
    split <;> rfl

/-- The control thread processes the item at the head of its queue. -/
theorem control_cases (h : step cfg maxFrames s .control = some s') :
    ∃ item rest, s.queue = item :: rest ∧ s.coordinators.control = none ∧
      s' = (processed cfg s item).effects.foldl apply
        { s with session := (processed cfg s item).session, queue := rest } := by
  simp only [step, control] at h
  split at h
  · cases h
  · split at h
    · next item rest hq =>
      split at h
      · next hc => exact ⟨item, rest, hq, hc, (Option.some.inj h).symm⟩
      · cases h
    · cases h

/-- The item a callback posts. -/
def outcome : Entry → Option SessionItem
  | .acted _ (.onTransferCompleted attempt success destination detail) =>
    some (.transferOutcome attempt success destination detail)
  | _ => none

theorem callback_queue (e : Entry) :
    (callback s e).queue = s.queue ++ (outcome e).toList ∧ (callback s e).turns = s.turns ∧
      (callback s e).coordinators = s.coordinators := by
  unfold callback outcome
  split <;> simp

theorem foldl_callback_queue (es : List Entry) :
    (es.foldl callback s).queue = s.queue ++ es.filterMap outcome ∧
      (es.foldl callback s).turns = s.turns ∧
        (es.foldl callback s).coordinators = s.coordinators := by
  induction es generalizing s with
  | nil => exact ⟨(List.append_nil _).symm, rfl, rfl⟩
  | cons e es ih =>
    obtain ⟨hq, ht, hc⟩ := callback_queue (s := s) e
    obtain ⟨hqs, hts, hcs⟩ := ih (s := callback s e)
    refine ⟨?_, hts.trans ht, hcs.trans hc⟩
    rw [List.foldl_cons, hqs, hq, List.append_assoc]
    cases h : outcome e <;> simp [h]

theorem foldl_callback_media (es : List Entry) :
    (es.foldl callback s).media = s.media ∧ (es.foldl callback s).incoming = s.incoming := by
  induction es generalizing s with
  | nil => exact ⟨rfl, rfl⟩
  | cons e es ih =>
    have he : (callback s e).media = s.media ∧ (callback s e).incoming = s.incoming := by
      unfold callback
      split <;> exact ⟨rfl, rfl⟩
    exact ⟨ih.1.trans he.1, ih.2.trans he.2⟩

theorem foldl_callback_session (es : List Entry) :
    ∃ b, (es.foldl callback s).session = { s.session with sipLegHandedOff := b } := by
  induction es generalizing s with
  | nil => exact ⟨_, rfl⟩
  | cons e es ih =>
    obtain ⟨b, hb⟩ := @ih (callback s e)
    refine ⟨b, ?_⟩
    rw [List.foldl_cons, hb]
    unfold callback
    split <;> rfl

/-- A message is posted. -/
theorem message_cases {item : SessionItem} (h : step cfg maxFrames s (.message item) = some s') :
    item.isMessage = true ∧ s'.queue = s.queue ++ [item] ∧ s'.session = s.session ∧
      s'.coordinators = s.coordinators ∧ s'.crashed = s.crashed ∧
      ((∃ turn, item = .ttsStarted turn ∧ turn = s.turns + 1 ∧ s'.turns = turn) ∨
        ((∀ turn, item ≠ .ttsStarted turn) ∧ s'.turns = s.turns)) := by
  simp only [step, message] at h
  split_ifs at h with _ hi
  split at h
  · next turn =>
    split_ifs at h with hturn
    cases h
    exact ⟨hi.1, rfl, rfl, rfl, rfl, .inl ⟨turn, rfl, hturn, rfl⟩⟩
  · next hne =>
    cases h
    exact ⟨hi.1, rfl, rfl, rfl, rfl, .inr ⟨hne, rfl⟩⟩

/-- The coordinators take a step, and their callbacks are called. -/
theorem telephony_cases {l : Coordinators.Label}
    (h : step cfg maxFrames s (.telephony l) = some s') :
    (∀ type ctx, l ≠ .start type ctx) ∧ (∀ type, l ≠ .shutdown type) ∧
      ∃ c, s.coordinators.step l = some c ∧
        s' = (c.log.drop s.coordinators.log.length).foldl callback { s with coordinators := c } := by
  simp only [step, telephony] at h
  split_ifs at h
  split at h
  case h_4 => cases h
  all_goals
    obtain ⟨c, hc, rfl⟩ := Option.map_eq_some_iff.1 h
    exact ⟨by simp, by simp, c, hc, rfl⟩

/-- The other steps only post signals, at most. -/
theorem other_cases {l : Label} (h : step cfg maxFrames s l = some s') (hc : l ≠ .control)
    (hm : ∀ item, l ≠ .message item) (ht : ∀ t, l ≠ .telephony t) :
    (∃ items, s'.queue = s.queue ++ items ∧ ∀ item ∈ items, item.isSignal = true) ∧
      s'.session = s.session ∧ s'.coordinators = s.coordinators ∧ s'.crashed = s.crashed ∧
      s'.turns = s.turns := by
  have hnone : ∃ items, s.queue = s.queue ++ items ∧ ∀ item ∈ items, item.isSignal = true :=
    ⟨[], by simp⟩
  have hone {item : SessionItem} (hi : item.isSignal = true) :
      ∃ items, s.queue ++ [item] = s.queue ++ items ∧ ∀ item ∈ items, item.isSignal = true :=
    ⟨[item], rfl, by simpa using hi⟩
  have hevent {item : SessionItem} (hi : item.isEvent = true) : item.isSignal = true := by
    unfold SessionItem.isSignal
    split <;> first | rfl | exact hi
  unfold step at h
  split at h
  · cases h
  cases l with
  | message item => exact absurd rfl (hm item)
  | control => exact absurd rfl hc
  | telephony t => exact absurd rfl (ht t)
  | ttsChunk turn more isFinal =>
    simp only [ttsChunk] at h
    split_ifs at h <;> cases h
    · exact ⟨hone rfl, rfl, rfl, rfl, rfl⟩
    · exact ⟨hnone, rfl, rfl, rfl, rfl⟩
  | push =>
    simp only [push] at h
    split at h
    · split_ifs at h <;> cases h <;> exact ⟨hnone, rfl, rfl, rfl, rfl⟩
    · cases h
  | event item =>
    simp only [event] at h
    split at h
    · next hi =>
      cases h
      split
      · split
        · exact ⟨hone (hevent hi), rfl, rfl, rfl, rfl⟩
        · exact ⟨hnone, rfl, rfl, rfl, rfl⟩
      · exact ⟨hone (hevent hi), rfl, rfl, rfl, rfl⟩
    · cases h
  | pop =>
    simp only [pop] at h
    split at h
    · split_ifs at h
      cases h
      exact ⟨hnone, rfl, rfl, rfl, rfl⟩
    · cases h
  | drained =>
    simp only [reportDrained] at h
    split_ifs at h
    cases h
    split
    · exact ⟨hone rfl, rfl, rfl, rfl, rfl⟩
    · exact ⟨hnone, rfl, rfl, rfl, rfl⟩

/-- Only the control thread works on the session, except for the flag that the
    callback of a coordinator sets. -/
theorem step_session {l : Label} (h : step cfg maxFrames s l = some s') (hl : l ≠ .control) :
    ∃ b, s'.session = { s.session with sipLegHandedOff := b } := by
  by_cases hm : ∃ item, l = .message item
  · obtain ⟨item, rfl⟩ := hm
    obtain ⟨-, -, hsess, -⟩ := message_cases h
    exact ⟨_, hsess⟩
  · by_cases ht : ∃ t, l = .telephony t
    · obtain ⟨t, rfl⟩ := ht
      obtain ⟨-, -, c, -, rfl⟩ := telephony_cases h
      exact foldl_callback_session _
    · obtain ⟨-, hsess, -⟩ := other_cases h hl (not_exists.1 hm) (not_exists.1 ht)
      exact ⟨_, hsess⟩

/-- The steps that process an item that `p` allows in the session. -/
def Processes (p : CallSession → SessionItem → Prop) (s : SessionThreads) (l : Label) : Prop :=
  l = .control → ∀ item ∈ s.queue.head?, p s.session item

instance (p : CallSession → SessionItem → Prop) [∀ t item, Decidable (p t item)]
    (s : SessionThreads) (l : Label) : Decidable (Processes p s l) :=
  inferInstanceAs (Decidable (_ → _))

/-- A monitor that is told each item and the session that processes it. -/
def observe {M : Type*} (update : CallSession → SessionItem → M → M) (m : M) (s : SessionThreads) :
    Label → M
  | .control => s.queue.head?.elim m fun item => update s.session item m
  | _ => m

/-- An invariant of the session and of its monitor, of the runs that process
    allowed items only. -/
theorem monitored_invariant {M : Type*} {m₀ : M} {update : CallSession → SessionItem → M → M}
    {p : CallSession → SessionItem → Prop} {I : CallSession → M → Prop}
    (hinit : I { callId := callId, callerDid := callerDid } m₀)
    (hflag : ∀ t b m, I t m → I { t with sipLegHandedOff := b } m)
    (hprocess : ∀ playing item t m, I t m → p t item →
      I (CallSession.process cfg playing item ⟨t, []⟩).session (update t item m))
    {s : SessionThreads × M}
    (hs : ((system cfg maxFrames callId callerDid).monitored m₀ (observe update)).ReachableIf
      (fun s l => Processes p s.1 l) s) : I s.1.session s.2 := by
  refine hs.invariant (I := fun s => I s.1.session s.2) hinit fun s l s' hI hp hst => ?_
  obtain ⟨t, hst', rfl⟩ := Option.map_eq_some_iff.1 hst
  have hst : step cfg maxFrames s.1 l = some t := hst'
  by_cases hl : l = .control
  · subst hl
    obtain ⟨item, rest, hq, -, rfl⟩ := control_cases hst
    have hupdate : observe update s.2 s.1 .control = update s.1.session item s.2 := by
      simp [observe, hq]
    rw [foldl_apply_session, hupdate]
    exact hprocess _ _ _ _ hI (hp rfl item (by rw [hq]; rfl))
  · have hsame : observe update s.2 s.1 l = s.2 := by
      cases l <;> first | rfl | exact absurd rfl hl
    obtain ⟨b, hb⟩ := step_session hst hl
    rw [hb, hsame]
    exact hflag _ _ _ hI

/-- An invariant of the session, of the runs that process allowed items only. -/
theorem session_invariant {p : CallSession → SessionItem → Prop} {I : CallSession → Prop}
    (hinit : I { callId := callId, callerDid := callerDid })
    (hflag : ∀ t b, I t → I { t with sipLegHandedOff := b })
    (hprocess : ∀ playing item t, I t → p t item →
      I (CallSession.process cfg playing item ⟨t, []⟩).session)
    (hs : (system cfg maxFrames callId callerDid).ReachableIf (Processes p) s) : I s.session := by
  obtain ⟨_, hm⟩ := hs.monitored () (observe fun _ _ m => m)
  exact monitored_invariant (I := fun t _ => I t) hinit (fun t b _ => hflag t b)
    (fun playing item t _ => hprocess playing item t) hm

end

end SessionThreads

end Yuviz.Gateway
